import LongPollTunnel.Proofs.Answering
import LongPollTunnel.Proofs.Grammar
import LongPollTunnel.Proofs.Registered

/-! # What a request addresses

A query asks for a new tunnel, or names an operation and an identity, which takes as many bytes
as the text of an identity has; what follows is of no account. An identity leads to the tunnel
that was registered under it last until it is taken out. Main statement: what every request is
answered and what it changes, for every query, every registry and whatever a connector gives.
-/

namespace LongPollTunnel

/-! ## The identity in a query -/

namespace Identity

theorem utf8Size_lower : ∀ d : Fin 16, (Hex.lower d.val).utf8Size = 1 := by
  decide

theorem mem_hyphenate {digits : List Char} {c : Char} (hc : c ∈ hyphenate digits) :
    c = '-' ∨ c ∈ digits := by
  have hgroup {n m : Nat} (hmem : c ∈ (digits.drop n).take m) : c ∈ digits :=
    List.mem_of_mem_drop (List.mem_of_mem_take hmem)
  simp only [hyphenate, List.mem_append, List.mem_cons] at hc
  rcases hc with (((hfirst | rfl | hgroup') | rfl | hgroup') | rfl | hgroup') | rfl | hlast
  · exact Or.inr (List.mem_of_mem_take hfirst)
  · exact Or.inl rfl
  · exact Or.inr (hgroup hgroup')
  · exact Or.inl rfl
  · exact Or.inr (hgroup hgroup')
  · exact Or.inl rfl
  · exact Or.inr (hgroup hgroup')
  · exact Or.inl rfl
  · exact Or.inr (List.mem_of_mem_drop hlast)

/-- An identity is written in characters of one byte each. -/
theorem utf8Size_of_mem_text {i : Identity} {c : Char} (hc : c ∈ i.text.toList) :
    c.utf8Size = 1 := by
  rw [text, String.toList_ofList] at hc
  rcases mem_hyphenate hc with rfl | hdigit
  · rfl
  · obtain ⟨d, _, rfl⟩ := List.mem_map.mp hdigit
    exact utf8Size_lower d

end Identity

namespace Operation

/-- The identity that a text begins with: its first bytes, as many as an identity has, or all of
the text if no character ends there. -/
inductive Begins (text : List Char) : List Char → Prop where
  | front {identity rest : List Char} (htext : text = identity ++ rest)
      (hbytes : (Utf8.encode identity).length = Identity.textLength) : Begins text identity
  | whole (hnone : ∀ front rest, text = front ++ rest →
      (Utf8.encode front).length ≠ Identity.textLength) : Begins text text

theorem length_encode_cons (c : Char) (text : List Char) :
    (Utf8.encode (c :: text)).length = c.utf8Size + (Utf8.encode text).length := by
  rw [Utf8.encode, List.flatMap_cons, List.length_append]
  simp [Utf8.encode]

theorem eq_nil_of_length_encode {text : List Char} (hbytes : (Utf8.encode text).length = 0) :
    text = [] := by
  cases text with
  | nil => rfl
  | cons c text =>
      have hpositive := c.utf8Size_pos
      rw [length_encode_cons] at hbytes
      omega

/-- The front of a text that takes so many bytes is found if there is one. -/
theorem takeBytes?_eq_some_iff {size : Nat} {text front : List Char} :
    takeBytes? size text = some front ↔
      (Utf8.encode front).length = size ∧ ∃ rest, text = front ++ rest := by
  induction text generalizing size front with
  | nil =>
      constructor
      · intro htake
        cases size with
        | zero =>
            cases htake
            exact ⟨rfl, [], rfl⟩
        | succ size => cases htake
      · rintro ⟨rfl, rest, hfront⟩
        obtain ⟨rfl, rfl⟩ := List.nil_eq_append_iff.mp hfront
        rfl
  | cons c text ih =>
      cases size with
      | zero =>
          rw [takeBytes?, Option.some.injEq]
          refine ⟨?_, fun ⟨hbytes, _⟩ => (eq_nil_of_length_encode hbytes).symm⟩
          rintro rfl
          exact ⟨rfl, c :: text, rfl⟩
      | succ size =>
          have hpositive := c.utf8Size_pos
          constructor
          · intro htake
            rw [takeBytes?] at htake
            split at htake
            next hfits =>
              obtain ⟨front, hfront, rfl⟩ := Option.map_eq_some_iff.mp htake
              obtain ⟨hbytes, rest, rfl⟩ := ih.mp hfront
              refine ⟨?_, rest, rfl⟩
              rw [length_encode_cons, hbytes]
              omega
            · cases htake
          · rintro ⟨hbytes, rest, hfront⟩
            cases front with
            | nil => cases hbytes
            | cons c' front =>
                obtain ⟨rfl, rfl⟩ := List.cons_eq_cons.mp hfront
                rw [length_encode_cons] at hbytes
                rw [takeBytes?, if_pos (by omega), ih.mpr ⟨by omega, rest, rfl⟩]
                rfl

/-- A text begins with one identity. -/
theorem begins_iff {text identity : List Char} :
    Begins text identity ↔ identityOf text = String.ofList identity := by
  rw [identityOf, String.ofList_inj]
  cases htake : takeBytes? Identity.textLength text with
  | some front =>
      obtain ⟨hbytes, rest, htext⟩ := takeBytes?_eq_some_iff.mp htake
      constructor
      · intro hbegins
        cases hbegins with
        | front htext' hbytes' =>
            have hsame := takeBytes?_eq_some_iff.mpr ⟨hbytes', _, htext'⟩
            rw [htake] at hsame
            exact Option.some.inj hsame
        | whole hnone => exact absurd hbytes (hnone front rest htext)
      · rintro rfl
        exact .front htext hbytes
  | none =>
      have hnone (front rest : List Char) (htext : text = front ++ rest) :
          (Utf8.encode front).length ≠ Identity.textLength := by
        intro hbytes
        rw [takeBytes?_eq_some_iff.mpr ⟨hbytes, rest, htext⟩] at htake
        cases htake
      constructor
      · intro hbegins
        cases hbegins with
        | front htext hbytes => exact absurd hbytes (hnone _ _ htext)
        | whole _ => rfl
      · rintro rfl
        exact .whole hnone

theorem length_encode_of_narrow {text : List Char} (hnarrow : ∀ c ∈ text, c.utf8Size = 1) :
    (Utf8.encode text).length = text.length := by
  induction text with
  | nil => rfl
  | cons c text ih =>
      obtain ⟨hc, hlater⟩ := List.forall_mem_cons.mp hnarrow
      rw [length_encode_cons, hc, ih hlater, List.length_cons, Nat.add_comm]

/-- What follows an identity is of no account. -/
theorem identityOf_text_append (i : Identity) (suffix : List Char) :
    identityOf (i.text.toList ++ suffix) = i.text := by
  have hbegins : Begins (i.text.toList ++ suffix) i.text.toList := by
    refine .front rfl ?_
    rw [length_encode_of_narrow fun c => Identity.utf8Size_of_mem_text, String.length_toList,
      i.length_text]
  rw [begins_iff.mp hbegins, String.ofList_toList]

/-! ## Queries -/

end Operation

/-- The name of the operation that needs a role, as it stands in a query. -/
def Role.queryPrefix : Role → String
  | .reader => Operation.readPrefix
  | .writer => Operation.writePrefix

/-- The operation that needs a role of the tunnel with this identity. -/
def Role.operation : Role → String → Operation
  | .reader => .read
  | .writer => .write

namespace Operation

theorem ofQuery_connect : ofQuery connectQuery = .ok .connect := by
  decide

theorem afterPrefix?_append (start : String) (text : List Char) :
    afterPrefix? start (start.toList ++ text) = some text := by
  unfold afterPrefix?
  rw [if_pos (List.isPrefixOf_iff_prefix.mpr (List.prefix_append _ _)), List.drop_left]

theorem afterPrefix?_eq_some_iff {start query : String} {text : List Char} :
    afterPrefix? start query.toList = some text ↔ query = start ++ String.ofList text := by
  constructor
  · intro hafter
    unfold afterPrefix? at hafter
    split at hafter
    next hfront =>
      obtain ⟨rest, hrest⟩ := List.isPrefixOf_iff_prefix.mp hfront
      rw [← hrest, List.drop_left, Option.some.injEq] at hafter
      rw [← String.toList_inj, String.toList_append, String.toList_ofList, ← hafter, hrest]
    · cases hafter
  · rintro rfl
    rw [String.toList_append, String.toList_ofList]
    exact afterPrefix?_append start text

/-- A query selects an operation on a tunnel if it begins with the name of the operation. -/
theorem ofQuery_queryPrefix_append (role : Role) (text : String) :
    ofQuery (role.queryPrefix ++ text) = .ok (role.operation (identityOf text.toList)) := by
  have hlength : (role.queryPrefix ++ text).toList =
      role.queryPrefix.toList ++ text.toList := String.toList_append ..
  have hempty : role.queryPrefix ++ text ≠ "" := by
    intro heq
    rw [heq] at hlength
    cases role <;> cases hlength
  have hconnect : role.queryPrefix ++ text ≠ connectQuery := by
    intro heq
    rw [heq] at hlength
    cases role <;> cases hlength
  rw [ofQuery, if_neg hempty, if_neg hconnect, hlength]
  cases role with
  | reader =>
      rw [Role.queryPrefix, afterPrefix?_append]
      rfl
  | writer =>
      have hnone : afterPrefix? readPrefix (writePrefix.toList ++ text.toList) = none := rfl
      rw [Role.queryPrefix, hnone, afterPrefix?_append]
      rfl

/-- Any other query is a fault of the client. -/
theorem ofQuery_other {query : String} (hconnect : query ≠ connectQuery)
    (hfront : ∀ (role : Role) text, query ≠ role.queryPrefix ++ text) :
    ∃ failure, ofQuery query = .error failure := by
  have hnone (role : Role) : afterPrefix? role.queryPrefix query.toList = none := by
    rw [Option.eq_none_iff_forall_ne_some]
    intro text hafter
    exact hfront role _ (afterPrefix?_eq_some_iff.mp hafter)
  rw [ofQuery, if_neg hconnect]
  split
  · exact ⟨_, rfl⟩
  · have hread : afterPrefix? readPrefix query.toList = none := hnone .reader
    have hwrite : afterPrefix? writePrefix query.toList = none := hnone .writer
    rw [hread, hwrite]
    exact ⟨_, rfl⟩

end Operation

namespace Hub

/-! ## Requests -/

/-- The call with this name has no objection to the request. -/
structure IsAsked (h : Hub) (name : String) (c : Call) (r : Request) : Prop where
  call : (h.withCall name).2.calls[(h.withCall name).1]? = some c
  free : c.objection? (.request r) = none

/-- The hub once the call with this name has made its request, and became like this by that. -/
def putBack (h : Hub) (name : String) (after : Call) : Hub :=
  { h with calls := (h.withCall name).2.calls.set (h.withCall name).1 after }

/-- The hub once the request is answered with a head and an empty body; of its body nothing is
read. -/
def answeredWith (h : Hub) (name : String) (c : Call) (r : Request) (head : Head) : Hub :=
  h.putBack name ((c.asking r).answered head .empty r.hold)

/-- Every request that names the identity is handled for the tunnel with this number: it draws a
ticket for the seat that it needs, and waits. -/
def LeadsTo (h : Hub) (identity : String) (number : Nat) : Prop :=
  ∃ t, h.tunnels[number]? = some t ∧
    ∀ (role : Role) (suffix name : String) (c : Call) (r : Request),
      r.query = role.queryPrefix ++ (identity ++ suffix) → h.IsAsked name c r →
      (h.apply (.call name (.request r))).2 =
        { h.putBack name { c.asking r with
              task := some (.handle number (.await role (t.seat role).next) r.hold) } with
          registry := h.registry.touch identity h.now
          tunnels := h.tunnels.set number (t.draw role).2 }

/-- Something was registered under the identity before, and nothing is after. -/
def Record.takesOut (r : Record) (identity : String) : Bool :=
  (r.before.registry.find? identity).isSome && (r.after.registry.find? identity).isNone

/-- The identity is registered in this move, and leads to another tunnel after it. -/
def Record.replaces (r : Record) (identity : String) (number : Nat) : Prop :=
  r.before.registers r.move identity ∧ r.after.registry.find? identity ≠ some number

variable {h next : Hub} {name identity : String} {c : Call} {r : Request} {number : Nat}

theorem apply_request (hasked : h.IsAsked name c r) :
    (h.apply (.call name (.request r))).2 =
      (h.withCall name).2.startRequest (h.withCall name).1 c r := by
  unfold apply
  simp only [hasked.call, hasked.free, applyCall]

theorem exists_calls_withCall (h : Hub) (name : String) :
    ∃ calls, (h.withCall name).2 = { h with calls } := by
  unfold withCall
  split
  · exact ⟨h.calls, rfl⟩
  · exact ⟨_, rfl⟩

theorem apply_request_of_error (hasked : h.IsAsked name c r) {failure : Failure}
    (hquery : Operation.ofQuery r.query = .error failure) :
    (h.apply (.call name (.request r))).2 = h.answeredWith name c r (.ofFailure failure) := by
  obtain ⟨calls, hcalls⟩ := h.exists_calls_withCall name
  rw [apply_request hasked, answeredWith, putBack, hcalls]
  simp only [startRequest, hquery]
  rfl

theorem apply_request_uncreated (hasked : h.IsAsked name c r)
    (hquery : Operation.ofQuery r.query = .ok .connect)
    (hnone : ∀ number, r.connection = .ok number → h.tunnels[number]? = none) :
    (h.apply (.call name (.request r))).2 = h.answeredWith name c r (.ofFailure .notCreated) := by
  obtain ⟨calls, hcalls⟩ := h.exists_calls_withCall name
  rw [apply_request hasked, answeredWith, putBack, hcalls]
  simp only [startRequest, hquery, connect]
  split
  · rfl
  next number hconnection =>
    rw [hnone number hconnection]
    rfl

theorem apply_request_created (hasked : h.IsAsked name c r) {t : Tunnel}
    (hquery : Operation.ofQuery r.query = .ok .connect) (hconnection : r.connection = .ok number)
    (ht : h.tunnels[number]? = some t) :
    (h.apply (.call name (.request r))).2 =
      { h.putBack name ((c.asking r).answered .created
            (.text (Utf8.ofString t.identity.text)) r.hold) with
        registry := h.registry.put t.identity.text number h.now } := by
  obtain ⟨calls, hcalls⟩ := h.exists_calls_withCall name
  rw [apply_request hasked, putBack, hcalls]
  simp only [startRequest, hquery, connect, hconnection, ht]
  rfl

theorem apply_request_absent (hasked : h.IsAsked name c r) {role : Role} {text : String}
    (hquery : r.query = role.queryPrefix ++ text)
    (habsent : h.registry.find? (Operation.identityOf text.toList) = none) :
    (h.apply (.call name (.request r))).2 = h.answeredWith name c r (.ofFailure .noSuchTunnel) := by
  obtain ⟨calls, hcalls⟩ := h.exists_calls_withCall name
  have hoperation := Operation.ofQuery_queryPrefix_append role text
  rw [← hquery] at hoperation
  rw [apply_request hasked, answeredWith, putBack, hcalls]
  cases role with
  | reader =>
      simp only [startRequest, hoperation, Role.operation, enqueue, Registry.get, habsent]
      rfl
  | writer =>
      simp only [startRequest, hoperation, Role.operation, enqueue, Registry.get, habsent]
      rfl

/-- A registered identity leads to its tunnel, whatever follows it in a query. -/
theorem leadsTo_of_find? {i : Identity} {t : Tunnel}
    (hfound : h.registry.find? i.text = some number) (ht : h.tunnels[number]? = some t) :
    h.LeadsTo i.text number := by
  refine ⟨t, ht, fun role suffix name c r hquery hasked => ?_⟩
  obtain ⟨calls, hcalls⟩ := h.exists_calls_withCall name
  have hoperation := Operation.ofQuery_queryPrefix_append role (i.text ++ suffix)
  rw [String.toList_append, Operation.identityOf_text_append, ← hquery] at hoperation
  rw [apply_request hasked, putBack, hcalls]
  cases role with
  | reader =>
      simp only [startRequest, hoperation, Role.operation, enqueue, Registry.get, hfound, ht,
        t.fst_draw]
      rfl
  | writer =>
      simp only [startRequest, hoperation, Role.operation, enqueue, Registry.get, hfound, ht,
        t.fst_draw]
      rfl

/-! ## Registered until it is taken out -/

theorem find?_of_run {start : Hub} {log : List Record} (hrun : Run start log h)
    (hreserves : start.registry.Reserves identity number)
    (hfound : start.registry.find? identity = some number)
    (hstays : ∀ record ∈ log,
      record.takesOut identity = false ∧ ¬ record.replaces identity number) :
    h.registry.find? identity = some number ∧ h.registry.Reserves identity number := by
  induction hrun with
  | nil => exact ⟨hfound, hreserves⟩
  | @snoc log h next move hrun hmove ih =>
      obtain ⟨hbefore, hreserved⟩ :=
        ih fun record hrecord => hstays record (List.mem_append_left _ hrecord)
      obtain ⟨hkept, hsame⟩ :=
        hstays ⟨h, move, next⟩ (List.mem_append_right _ (List.mem_singleton_self _))
      have hafter := (edit_after? hmove).reserves hreserved fun hregisters =>
        not_not.mp fun hother => hsame ⟨hregisters, hother⟩
      refine ⟨?_, hafter⟩
      rcases hafter.find?_eq with hnone | hthere
      · -- who was there and is not has been taken out
        simp [Record.takesOut, hbefore, hnone] at hkept
      · exact hthere

theorem exists_tunnel_of_run {start : Hub} {log : List Record} (hrun : Run start log h)
    {t : Tunnel} (ht : start.tunnels[number]? = some t) : ∃ t', h.tunnels[number]? = some t' := by
  induction hrun with
  | nil => exact ⟨t, ht⟩
  | snoc _ hmove ih =>
      obtain ⟨t', ht'⟩ := ih
      obtain ⟨t'', ht'', _⟩ := becomes_after? hmove ht'
      exact ⟨t'', ht''⟩

/-- A request for a new tunnel that gets one registers it and is answered with its identity, which
leads to this tunnel in every query from then on, until it is taken out or given to another. If
there is none to get, the answer is that none was created. A query that begins with an identity
which is not registered is answered so, and one that asks for nothing is told that it is wrong.
None of these answers changes anything else, and each reports what it has to. No other heads are
ever told than answers. -/
theorem request_is_answered (hasked : h.IsAsked name c r) :
    let next := (h.apply (.call name (.request r))).2
    (∀ number t, r.query = Operation.connectQuery → r.connection = .ok number →
      h.tunnels[number]? = some t →
      next = { h.putBack name ((c.asking r).answered .created
            (.text (Utf8.ofString t.identity.text)) r.hold) with
          registry := h.registry.put t.identity.text number h.now } ∧
        Head.created.status = 200 ∧ t.identity.text.length = 36 ∧
        next.registry.find? t.identity.text = some number ∧
        ∀ log later, Run next log later →
          (∀ record ∈ log, record.takesOut t.identity.text = false ∧
            ¬ record.replaces t.identity.text number) →
          later.registry.find? t.identity.text = some number ∧
            later.LeadsTo t.identity.text number) ∧
    (r.query = Operation.connectQuery →
      (∀ number, r.connection = .ok number → h.tunnels[number]? = none) →
      next = h.answeredWith name c r (.ofFailure .notCreated) ∧
        (Head.ofFailure .notCreated).Reports "No tunnel created." 404 516) ∧
    (∀ (role : Role) text, r.query = role.queryPrefix ++ text →
      ∃ identity, Operation.Begins text.toList identity ∧
        (h.registry.find? (String.ofList identity) = none →
          next = h.answeredWith name c r (.ofFailure .noSuchTunnel) ∧
            (Head.ofFailure .noSuchTunnel).Reports "No such tunnel." 404 516)) ∧
    (r.query ≠ Operation.connectQuery → (∀ (role : Role) text, r.query ≠ role.queryPrefix ++ text) →
      ∃ failure, next = h.answeredWith name c r (.ofFailure failure) ∧
        (Head.ofFailure failure).Reports failure.message 400 768) ∧
    ∀ last, Reaches {} last → ∀ call ∈ last.calls, ∀ head, Event.head head ∈ call.events →
      head.IsAnswer := by
  intro next
  refine ⟨?_, ?_, ?_, ?_, ?_⟩
  · intro number t hquery hconnection ht
    have hconnect : Operation.ofQuery r.query = .ok .connect := by
      rw [hquery]
      exact Operation.ofQuery_connect
    have hnext : next = _ := apply_request_created hasked hconnect hconnection ht
    have hregistry : next.registry = h.registry.put t.identity.text number h.now := by
      rw [hnext]
    have hthere : next.tunnels[number]? = some t := by
      rw [hnext]
      exact ht
    have hfound : next.registry.find? t.identity.text = some number := by
      rw [hregistry]
      exact h.registry.find?_put_self _ _ _
    have hreserves : next.registry.Reserves t.identity.text number := by
      rw [hregistry]
      exact h.registry.reserves_put _ _ _
    refine ⟨hnext, rfl, t.identity.length_text, hfound, fun log later hrun hstays => ?_⟩
    obtain ⟨hlater, _⟩ := find?_of_run hrun hreserves hfound hstays
    obtain ⟨t', ht'⟩ := exists_tunnel_of_run hrun hthere
    exact ⟨hlater, leadsTo_of_find? hlater ht'⟩
  · intro hquery hnone
    have hconnect : Operation.ofQuery r.query = .ok .connect := by
      rw [hquery]
      exact Operation.ofQuery_connect
    exact ⟨apply_request_uncreated hasked hconnect hnone, Head.reports_notFound rfl⟩
  · intro role text hquery
    refine ⟨(Operation.identityOf text.toList).toList, ?_, ?_⟩
    · rw [Operation.begins_iff, String.ofList_toList]
    · rw [String.ofList_toList]
      intro habsent
      exact ⟨apply_request_absent hasked hquery habsent, Head.reports_notFound rfl⟩
  · intro hconnect hfront
    obtain ⟨failure, hquery⟩ := Operation.ofQuery_other hconnect hfront
    exact ⟨failure, apply_request_of_error hasked hquery,
      Head.reports_client (kind_of_ofQuery hquery)⟩
  · intro last hreaches call hcall head hhead
    refine (areAnswered_of_reaches hreaches call hcall).heads head ?_
    exact List.mem_filterMap.mpr ⟨_, hhead, rfl⟩

/-- A request that asks for a new tunnel and gets it. -/
theorem request_is_answered_with_tunnel :
    let h := (({} : Hub).replay [.act (.open (Identity.random 0) none {} [])]).2
    let r : Request := { query := "connect", connection := .ok 0 }
    let next := (h.apply (.call "first" (.request r))).2
    next.registry.find? (Identity.random 0).text = some 0 ∧
      next.LeadsTo (Identity.random 0).text 0 := by
  intro h r next
  have hasked : h.IsAsked "first" { name := "first" } r := ⟨rfl, rfl⟩
  obtain ⟨hcreated, _⟩ := request_is_answered hasked
  obtain ⟨_, _, _, _, hleads⟩ := hcreated 0 _ rfl rfl rfl
  exact hleads [] next .nil (by simp)

end Hub

end LongPollTunnel

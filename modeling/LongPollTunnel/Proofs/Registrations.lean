import LongPollTunnel.Proofs.Changes

/-! # Registrations and how they end

A move makes at most one edit to the registry, and enters only what it is known to register. So
no identity is registered twice at a time, and an identity that is not registered stays so until
somebody registers it. Main statement: every move is such an edit.
-/

namespace LongPollTunnel

namespace Registry

/-- No identity comes twice. -/
def Distinct (r : Registry) : Prop :=
  (r.entries.map (·.identity)).Nodup

/-- Entries that are distinct by their identities are one if they share it. -/
theorem eq_of_identity {r : Registry} (hdistinct : r.Distinct) {e e' : Entry} (he : e ∈ r.entries)
    (he' : e' ∈ r.entries) (hidentity : e.identity = e'.identity) : e = e' :=
  List.inj_on_of_nodup_map hdistinct he he' hidentity

theorem find?_eq_none_iff {r : Registry} {identity : String} :
    r.find? identity = none ↔ ∀ e ∈ r.entries, e.identity ≠ identity := by
  simp [find?, List.find?_eq_none]

/-- What one step may do to a registry in which it registers these identities only, and in which
somebody obtains what was registered under those that it takes out. -/
inductive Edit (registered : String → Prop) (obtained : String → Nat → Prop) (r : Registry) :
    Registry → Prop where
  | stays : Edit registered obtained r r
  | takesOut (identity : String)
      (hobtained : ∀ number, (r.remove identity).1 = some number → obtained identity number) :
      Edit registered obtained r (r.remove identity).2
  | marks (identity : String) (now : Nat) : Edit registered obtained r (r.touch identity now)
  | enters {identity : String} (hregistered : registered identity) (number now : Nat) :
      Edit registered obtained r (r.put identity number now)
  | sweeps (tunnels : List Tunnel) (now timeout : Nat)
      (hobtained : ∀ e ∈ (r.sweep tunnels now timeout).1, obtained e.identity e.tunnel) :
      Edit registered obtained r (r.sweep tunnels now timeout).2

variable {registered : String → Prop} {obtained : String → Nat → Prop} {r after : Registry}
  {identity : String} {number : Nat}

theorem distinct_erase (hdistinct : r.Distinct) (identity : String) :
    (r.erase identity).Distinct :=
  hdistinct.sublist (List.filter_sublist.map _)

theorem identity_touch (identity : String) (now : Nat) (e : Entry) :
    (if e.identity = identity then { e with lastUsed := now } else e).identity = e.identity := by
  split <;> rfl

theorem distinct_put (hdistinct : r.Distinct) (identity : String) (number now : Nat) :
    (r.put identity number now).Distinct := by
  unfold Distinct put
  rw [List.map_append, List.nodup_append]
  -- the entry that was there goes before the new one is added at the end
  refine ⟨distinct_erase hdistinct identity, List.nodup_singleton _, ?_⟩
  intro other hother last hlast heq
  obtain ⟨e, he, rfl⟩ := List.mem_map.mp hother
  rw [List.map_singleton, List.mem_singleton] at hlast
  have hne := (List.mem_filter.mp he).2
  exact of_decide_eq_true hne (heq.trans hlast)

/-- However the registry is edited, an identity stands in it once. -/
theorem Edit.distinct (hedit : r.Edit registered obtained after) (hdistinct : r.Distinct) :
    after.Distinct := by
  cases hedit with
  | stays => exact hdistinct
  | takesOut identity _ => exact distinct_erase hdistinct identity
  | enters _ number now => exact distinct_put hdistinct _ number now
  | marks identity now =>
      have hsame : (fun e : Entry => e.identity) ∘ (fun e =>
          if e.identity = identity then { e with lastUsed := now } else e) =
          fun e => e.identity := funext (identity_touch identity now)
      unfold Distinct touch
      rw [List.map_map, hsame]
      exact hdistinct
  | sweeps tunnels now timeout _ =>
      have hsame : (fun e : Entry => e.identity) ∘ (fun e =>
          if judge tunnels now timeout e = .refresh then { e with lastUsed := now } else e) =
          fun e => e.identity := by
        funext e
        dsimp only [Function.comp]
        split <;> rfl
      unfold Distinct sweep
      dsimp only
      rw [List.map_map, hsame]
      exact hdistinct.sublist (List.filter_sublist.map _)

/-- An entry is as it was, marked as used, or that of an identity which the step registers. -/
theorem Edit.mem (hedit : r.Edit registered obtained after) {e : Entry} (he : e ∈ after.entries) :
    (∃ before ∈ r.entries, before.identity = e.identity ∧ before.tunnel = e.tunnel) ∨
      (registered e.identity ∧ after.find? e.identity = some e.tunnel) := by
  cases hedit with
  | stays => exact Or.inl ⟨e, he, rfl, rfl⟩
  | takesOut identity _ => exact Or.inl ⟨e, List.mem_of_mem_filter he, rfl, rfl⟩
  | marks identity now =>
      obtain ⟨before, hbefore, rfl⟩ := List.mem_map.mp he
      refine Or.inl ⟨before, hbefore, ?_⟩
      split <;> exact ⟨rfl, rfl⟩
  | enters hregistered number now =>
      rcases List.mem_append.mp he with hbefore | hnew
      · exact Or.inl ⟨e, List.mem_of_mem_filter hbefore, rfl, rfl⟩
      · rw [List.mem_singleton] at hnew
        subst hnew
        exact Or.inr ⟨hregistered, r.find?_put_self _ number now⟩
  | sweeps tunnels now timeout _ =>
      obtain ⟨before, hbefore, rfl⟩ := List.mem_map.mp he
      refine Or.inl ⟨before, List.mem_of_mem_filter hbefore, ?_⟩
      split <;> exact ⟨rfl, rfl⟩

/-- Nothing comes in that is not registered. -/
theorem Edit.absent (hedit : r.Edit registered obtained after) (hregistered : ¬ registered identity)
    (habsent : r.find? identity = none) : after.find? identity = none := by
  rw [find?_eq_none_iff] at habsent ⊢
  rintro e he rfl
  rcases hedit.mem he with ⟨before, hbefore, hidentity, _⟩ | ⟨hnew, _⟩
  · exact habsent before hbefore hidentity
  · exact hregistered hnew

/-- Nothing but the tunnel with this number is registered under the identity. -/
def Reserves (r : Registry) (identity : String) (number : Nat) : Prop :=
  ∀ e ∈ r.entries, e.identity = identity → e.tunnel = number

theorem reserves_put (r : Registry) (identity : String) (number now : Nat) :
    (r.put identity number now).Reserves identity number := by
  intro e he hidentity
  rcases List.mem_append.mp he with hbefore | hnew
  · exact absurd hidentity (of_decide_eq_true (List.mem_filter.mp hbefore).2)
  · rw [List.mem_singleton.mp hnew]

/-- A reserved identity leads to its tunnel or nowhere. -/
theorem Reserves.find?_eq (hreserves : r.Reserves identity number) :
    r.find? identity = none ∨ r.find? identity = some number := by
  unfold find?
  cases hfound : r.entries.find? (·.identity = identity) with
  | none => exact Or.inl rfl
  | some e =>
      have hidentity : e.identity = identity := by simpa using List.find?_some hfound
      exact Or.inr (congrArg some (hreserves e (List.mem_of_find?_eq_some hfound) hidentity))

/-- A step that registers no other tunnel under an identity leaves it reserved. -/
theorem Edit.reserves (hedit : r.Edit registered obtained after) (hreserves : r.Reserves identity number)
    (hregistered : registered identity → after.find? identity = some number) :
    after.Reserves identity number := by
  rintro e he rfl
  rcases hedit.mem he with ⟨before, hbefore, hidentity, htunnel⟩ | ⟨hnew, hfound⟩
  · rw [← htunnel]
    exact hreserves before hbefore hidentity
  · have hsame := hregistered hnew
    rw [hfound, Option.some.injEq] at hsame
    exact hsame

end Registry

/-! ## What the registry hands out -/

namespace Stream

/-- The stream finds that its tunnel, or its client, has failed. -/
def detectsFailure (s : Stream) (now : Nat) (t : Tunnel) : Prop :=
  (∃ deadline failure, s.phase = .reading deadline ∧
    (t.readSome (deadline.any fun time => decide (time ≤ now))).1 = .failed failure) ∨
  (∃ next, s.phase = .flushing next ∧ next ≠ .leave ∧ s.outlet.flush = .gone)

end Stream

namespace Hub

/-- In this move a read or a relay of the tunnel with this number fails, or the client of a
response is found to be gone. -/
def detectsFailure (h : Hub) (move : Move) (number : Nat) : Prop :=
  match move with
  | .go (.stream j) => ∃ s t, h.streams[j]? = some s ∧ s.tunnel = number ∧
      h.tunnels[number]? = some t ∧ s.detectsFailure h.clock t
  | .go (.call i) => ∃ c t ticket rest hold failure used left, h.calls[i]? = some c ∧
      c.task = some (.handle number (.relaying ticket rest) hold) ∧
      h.tunnels[number]? = some t ∧ Handling.Fails t c.upload rest failure used left
  | .go (.sweeper _) | .act _ | .takeNews => False

/-- A user asks for a sweep through an idle call, or a sweeper comes to a sweep that is due. -/
inductive StartsSweep (h : Hub) : Move → Agent → Nat → Prop where
  | call {name : String} {c : Call} (timeout : Nat)
      (hc : (h.withCall name).2.calls[(h.withCall name).1]? = some c) (hidle : c.task = none) :
      StartsSweep h (.act (.call name (.sweep timeout))) (.call (h.withCall name).1) timeout
  | sweeper {k : Nat} {w : Sweeper} (hw : h.sweepers[k]? = some w)
      (hongoing : w.hasStopped = false) (hsweep : w.sweep = none)
      (hstopping : w.isStopping = false) (hdue : w.due ≤ h.clock) :
      StartsSweep h (.go (.sweeper k)) (.sweeper k) w.timeout

/-- In this move a removal, a sweep or a teardown gets the tunnel with this number out of the
registry, where it was under this identity. -/
inductive Obtains (h : Hub) (identity : String) (number : Nat) : Move → Prop where
  | removes (hfound : (h.registry.remove identity).1 = some number) :
      Obtains h identity number (.act (.remove identity))
  | sweeps {move : Move} {agent : Agent} {timeout lastUsed : Nat}
      (hstarts : h.StartsSweep move agent timeout)
      (he : ⟨identity, number, lastUsed⟩ ∈ (h.registry.sweep h.tunnels h.now timeout).1) :
      Obtains h identity number move
  | tearsDown {move : Move} {failed : Nat} {t : Tunnel} (hdetects : h.detectsFailure move failed)
      (ht : h.tunnels[failed]? = some t) (hidentity : t.identity.text = identity)
      (hfound : (h.registry.teardown t).1 = some number) : Obtains h identity number move

end Hub

/-! ## Requests and streams -/

section

variable {registered : String → Prop} {obtained : String → Nat → Prop} {r : Registry} {t : Tunnel}

/-- A request edits the registry when it tears its tunnel down, and obtains it then if it was
there. -/
theorem Handling.Step.edit {handling : Handling} {u : Upload} {progress : Handling.Progress}
    {after : Handling.Surroundings} (hstep : handling.Step r t u progress after)
    (hobtained : ∀ ticket rest failure used left, handling = .relaying ticket rest →
      Handling.Fails t u rest failure used left →
        ∀ number, (r.teardown t).1 = some number → obtained t.identity.text number) :
    r.Edit registered obtained after.registry := by
  cases hstep with
  | fails hfails =>
      rw [Handling.failRelay_eq]
      dsimp only
      rw [hfails.sameButSink.identity_eq]
      exact .takesOut _ (hobtained _ _ _ _ _ rfl hfails)
  | _ => exact .stays

theorem Stream.registry_afterTeardown (s : Stream) (failure : Failure)
    (around : Stream.Surroundings) :
    (s.afterTeardown failure around).1.registry = around.registry := by
  unfold Stream.afterTeardown
  split <;> rfl

/-- A stream that fails takes the registration out whether the close waits or not. -/
theorem Stream.registry_fail (s : Stream) (failure : Failure) (around : Stream.Surroundings) :
    (s.fail failure around).1.registry = around.registry.erase around.tunnel.identity.text := by
  rw [Stream.fail_eq]
  cases around.tunnel.close.1 with
  | done result => exact s.registry_afterTeardown failure _
  | waiting ticket => rfl

/-- A stream obtains its tunnel when it comes upon a failure. -/
theorem Stream.Step.edit {now : Nat} {s s' : Stream} {after : Stream.Surroundings}
    (hstep : s.Step now r t after s')
    (hobtained : s.detectsFailure now t →
      ∀ number, (r.teardown t).1 = some number → obtained t.identity.text number) :
    r.Edit registered obtained after.registry := by
  cases hstep with
  | idles _ _ => exact .stays
  | reads _ _ hwrite =>
      rw [hwrite.registry]
      exact .stays
  | waits _ _ => exact .stays
  | fails hphase hread =>
      rw [Stream.registry_fail, (Tunnel.sameButReader_of_readSome hread).identity_eq]
      exact .takesOut _ (hobtained (Or.inl ⟨_, _, hphase, congrArg Prod.fst hread⟩))
  | flushes _ _ _ hgoesOn =>
      rw [hgoesOn.registry]
      exact .stays
  | leaves _ _ => exact .stays
  | loses hphase hnext hgone =>
      rw [Stream.registry_fail]
      exact .takesOut _ (hobtained (Or.inr ⟨_, hphase, hnext, hgone⟩))
  | closes _ _ =>
      rw [Stream.registry_afterTeardown]
      exact .stays

end

/-! ## Moves -/

namespace Hub

variable {h next : Hub} {i : Nat} {c : Call} {registered : String → Prop}
  {obtained : String → Nat → Prop}

/-- The move registers a tunnel under this identity. -/
def registers (h : Hub) (move : Move) (identity : String) : Prop :=
  match move with
  | .act (.put given _) => given = identity
  | .act (.call _ (.request r)) =>
    Operation.ofQuery r.query = .ok .connect ∧
      ∃ number t, r.connection = .ok number ∧ h.tunnels[number]? = some t ∧
        t.identity.text = identity
  | .act _ | .go _ | .takeNews => False

theorem registry_giveBack (h : Hub) (claims : List Claim) (awaited : Option Claim) :
    (h.giveBack claims awaited).registry = h.registry := by
  rw [giveBack_eq]

theorem registry_abortTask (h : Hub) (i : Nat) (c : Call) :
    (h.abortTask i c).registry = h.registry := by
  rw [abortTask_eq]
  exact registry_giveBack h _ _

theorem registry_releaseAll (h : Hub) (i : Nat) (c : Call) :
    (h.releaseAll i c).registry = h.registry := by
  rw [releaseAll_eq]
  exact registry_giveBack h _ _

theorem registry_dropClient (h : Hub) (i : Nat) (c : Call) :
    (h.dropClient i c).registry = h.registry := by
  rw [← registry_abortTask h i c]
  unfold dropClient
  dsimp only
  split
  next body _ => cases body <;> rfl
  · rfl

theorem registry_takeProgress (h : Hub) (i : Nat) (c : Call) (number : Nat) (hold : Bool)
    (progress : Handling.Progress) (after : Handling.Surroundings) :
    (h.takeProgress i c number hold progress after).registry = after.registry := by
  cases progress <;> rfl

/-- A request that starts registers a new tunnel, or marks the one it asks for as used. -/
theorem Starts.edit {r : Request} (hstarts : h.Starts i c r next)
    (hregistered : ∀ number t,
      Operation.ofQuery r.query = .ok .connect → r.connection = .ok number →
      h.tunnels[number]? = some t → registered t.identity.text) :
    h.registry.Edit registered obtained next.registry := by
  cases hstarts with
  | @created number t hquery hconnection ht =>
      exact .enters (hregistered number t hquery hconnection ht) _ _
  | waits _ _ _ _ => exact .marks _ _
  | _ => exact .stays

/-- Only a request for a new tunnel registers an identity. -/
theorem CallStep.edit {cause : Option CallAction} (hstep : CallStep h i c cause next)
    (hregistered : ∀ r number t, cause = some (.request r) →
      Operation.ofQuery r.query = .ok .connect → r.connection = .ok number →
      h.tunnels[number]? = some t → registered t.identity.text)
    (hswept : ∀ timeout, cause = some (.sweep timeout) → c.task = none →
      ∀ e ∈ (h.registry.sweep h.tunnels h.now timeout).1, obtained e.identity e.tunnel)
    (hfailed : ∀ number ticket rest hold failure used left t, cause = none →
      c.task = some (.handle number (.relaying ticket rest) hold) →
      h.tunnels[number]? = some t → Handling.Fails t c.upload rest failure used left →
        ∀ found, (h.registry.teardown t).1 = some found → obtained t.identity.text found) :
    h.registry.Edit registered obtained next.registry := by
  cases hstep with
  | acquired htask ht hserving =>
      rw [unqueue_leave?_eq_giveBack]
      change h.registry.Edit registered obtained (h.giveBack _ _).registry
      rw [registry_giveBack]
      exact .stays
  | sweep timeout hidle =>
      simp only [startSweep, keepSweep_eq]
      exact .sweeps _ _ _ (hswept timeout rfl hidle)
  | sweepOn htask hresume =>
      rw [keepSweep_eq]
      exact .stays
  | @request r next hidle hfirst hstarts =>
      exact hstarts.edit fun number t => hregistered r number t rfl
  | handle htask ht hstep =>
      rw [registry_takeProgress]
      refine hstep.edit ?_
      rintro ticket rest failure used left rfl hfails
      exact hfailed _ ticket rest _ failure used left _ rfl htask ht hfails
  | abort =>
      rw [registry_abortTask]
      exact .stays
  | release =>
      rw [registry_releaseAll]
      exact .stays
  | drop =>
      rw [registry_dropClient]
      exact .stays
  | _ => exact .stays

theorem registry_withCall (h : Hub) (name : String) :
    (h.withCall name).2.registry = h.registry := by
  unfold withCall
  split <;> rfl

theorem now_withCall (h : Hub) (name : String) : (h.withCall name).2.now = h.now := by
  unfold withCall
  split <;> rfl

/-- The step lemma for what is done from outside: removing and sweeping obtain what was there. -/
theorem edit_apply (h : Hub) (action : Action) :
    h.registry.Edit (h.registers (.act action))
      (fun identity number => h.Obtains identity number (.act action))
      (h.apply action).2.registry := by
  cases action with
  | put identity number =>
      unfold apply
      dsimp only
      split
      · exact .enters rfl _ _
      · exact .stays
  | get identity => exact .marks _ _
  | remove identity =>
      refine .takesOut identity fun number hfound => ?_
      exact Obtains.removes hfound
  | describe number shownAs =>
      unfold apply
      dsimp only
      split <;> exact .stays
  | call name action =>
      rw [← registry_withCall h name]
      rcases callStep_apply h name action with heq | ⟨c, hc, hstep⟩
      · rw [heq]
        exact .stays
      · refine hstep.edit (fun r number t hrequest hquery hconnection ht => ?_)
          (fun timeout hsweep hidle e he => ?_) fun _ _ _ _ _ _ _ _ hnone => by cases hnone
        · cases hrequest
          rw [tunnels_withCall] at ht
          exact ⟨hquery, number, t, hconnection, ht, rfl⟩
        · cases hsweep
          rw [registry_withCall, tunnels_withCall, now_withCall] at he
          exact .sweeps (.call timeout hc hidle) he
  | «open» _ _ _ _ | feed _ _ | setManner _ _ | advance _ => exact .stays

/-- A sweeper obtains what its sweep takes out. -/
theorem edit_resumeSweeper {k : Nat} (hnext : h.resumeSweeper k = some next) :
    h.registry.Edit registered
      (fun identity number => h.Obtains identity number (.go (.sweeper k))) next.registry := by
  obtain ⟨s, s', registry, tunnels, hs, hstep, rfl⟩ := sweeperStep_resumeSweeper hnext
  cases hstep with
  | resumes _ _ _ => exact .stays
  | stops _ _ _ => exact .stays
  | sweeps hongoing hsweep hstopping hdue =>
      exact .sweeps _ _ _ fun e he => .sweeps (.sweeper hs hongoing hsweep hstopping hdue) he

/-- Every move makes one edit at most. -/
theorem edit_after? {move : Move} (hmove : h.after? move = some next) :
    h.registry.Edit (h.registers move)
      (fun identity number => h.Obtains identity number move) next.registry := by
  cases move with
  | act action =>
      cases hmove
      exact edit_apply h action
  | go agent =>
      cases agent with
      | call i =>
          obtain ⟨c, hc, hstep⟩ := callStep_resumeCall hmove
          refine hstep.edit (fun _ _ _ hnone => by cases hnone) (fun _ hnone => by cases hnone) ?_
          intro number ticket rest hold failure used left t _ htask ht hfails found hfound
          exact .tearsDown ⟨c, t, ticket, rest, hold, failure, used, left, hc, htask, ht, hfails⟩
            ht rfl hfound
      | stream j =>
          obtain ⟨s, s', t, after, hs, ht, hstep, rfl⟩ := streamStep_resumeStream hmove
          exact hstep.edit fun hdetects found hfound =>
            .tearsDown ⟨s, t, hs, rfl, ht, hdetects⟩ ht rfl hfound
      | sweeper k => exact edit_resumeSweeper hmove
  | takeNews =>
      cases hmove
      exact .stays

/-- A sweep that starts leaves in the registry what it does not take out. -/
theorem StartsSweep.registry_eq {move : Move} {agent : Agent} {timeout : Nat}
    (hstarts : h.StartsSweep move agent timeout) (hmove : h.after? move = some next) :
    next.registry = (h.registry.sweep h.tunnels h.now timeout).2 := by
  cases hstarts with
  | @call name c _ hc hidle =>
      have hobjection : c.objection? (.sweep timeout) = none := by
        simp [Call.objection?, Call.isBusy, hidle, CallAction.isRequest]
      cases hmove
      simp only [apply, hc, hobjection, applyCall, startSweep, keepSweep_eq]
      change ((h.withCall name).2.registry.sweep _ (h.withCall name).2.now timeout).2 = _
      rw [registry_withCall, tunnels_withCall, now_withCall]
  | @sweeper k w hw hongoing hsweep hstopping hdue =>
      simp only [after?, resume, resumeSweeper, hw, Sweeper.step, hongoing, hsweep, hstopping, hdue,
        Option.bind_eq_bind, Option.bind_some] at hmove
      cases hmove
      rfl

end Hub

end LongPollTunnel

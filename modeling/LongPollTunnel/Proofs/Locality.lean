import LongPollTunnel.Proofs.Parts

/-! # What a request changes

A request, its client and the stream that it may start have to do with one tunnel only. Main
statement: every step that is about one tunnel changes nothing but what is about it.
-/

namespace LongPollTunnel

/-! ## What is taken out -/

/-- The handling of a request takes out its own tunnel at most. -/
theorem Handling.Step.registry_eq {r : Registry} {t : Tunnel} {u : Upload} {handling : Handling}
    {progress : Handling.Progress} {after : Handling.Surroundings}
    (hstep : handling.Step r t u progress after) :
    after.registry = r ∨ after.registry = r.erase t.identity.text := by
  cases hstep with
  | fails hfails =>
      rw [Handling.failRelay_eq]
      refine Or.inr ?_
      dsimp only
      rw [hfails.sameButSink.identity_eq]
  | _ => exact Or.inl rfl

/-- So does a stream. -/
theorem Stream.Step.registry_eq {now : Nat} {s s' : Stream} {r : Registry} {t : Tunnel}
    {after : Stream.Surroundings} (hstep : s.Step now r t after s') :
    after.registry = r ∨ after.registry = r.erase t.identity.text := by
  cases hstep with
  | idles _ _ => exact Or.inl rfl
  | reads _ _ hwrite => exact Or.inl hwrite.registry
  | waits _ _ => exact Or.inl rfl
  | fails _ hread =>
      rw [Stream.registry_fail]
      refine Or.inr ?_
      dsimp only
      rw [(Tunnel.sameButReader_of_readSome hread).identity_eq]
  | flushes _ _ _ hgoesOn => exact Or.inl hgoesOn.registry
  | leaves _ _ => exact Or.inl rfl
  | loses _ _ _ =>
      rw [Stream.registry_fail]
      exact Or.inr rfl
  | closes _ _ =>
      rw [Stream.registry_afterTeardown]
      exact Or.inl rfl

/-! ## Steps about a tunnel -/

/-- No tunnel but the one with this number has the identity. -/
def Tunnel.NamesNoOther (number : Nat) (tunnels : List Tunnel) (identity : String) : Prop :=
  ∀ other t, tunnels[other]? = some t → t.identity.text = identity → other = number

/-- The request names no other tunnel but the one with this number, nor does its connector make
another. -/
def Request.IsFor (number : Nat) (tunnels : List Tunnel) (r : Request) : Prop :=
  match Operation.ofQuery r.query with
  | .error _ => True
  | .ok .connect => ∀ other, r.connection = .ok other → other = number
  | .ok (.read identity) | .ok (.write identity) => Tunnel.NamesNoOther number tunnels identity

/-- What the client of a request about the tunnel with this number can do. -/
def CallAction.IsFor (number : Nat) (tunnels : List Tunnel) : CallAction → Prop
  | .request r => r.IsFor number tunnels
  | .upload _ _ | .pull | .abort | .release | .drop => True
  | .acquire _ _ | .readSome | .readInstruction | .available | .writeAll _ | .writeInstruction _
  | .flush | .shutdown | .close _ | .sweep _ | .keepSweeping _ _ | .stopSweeping => False

instance (number : Nat) (tunnels : List Tunnel) (identity : String) :
    Decidable (Tunnel.NamesNoOther number tunnels identity) :=
  decidable_of_iff (∀ x ∈ tunnels.zipIdx, x.1.identity.text = identity → x.2 = number) <| by
    simp only [Prod.forall, List.mem_zipIdx_iff_getElem?, Tunnel.NamesNoOther]
    exact forall_comm

instance (number : Nat) (connection : Except Failure Nat) :
    Decidable (∀ other, connection = .ok other → other = number) :=
  match connection with
  | .error _ => .isTrue (by simp)
  | .ok n => decidable_of_iff (n = number) (by simp)

instance (number : Nat) (tunnels : List Tunnel) (r : Request) :
    Decidable (r.IsFor number tunnels) := by
  unfold Request.IsFor
  split <;> infer_instance

instance (number : Nat) (tunnels : List Tunnel) (action : CallAction) :
    Decidable (action.IsFor number tunnels) := by
  cases action <;> unfold CallAction.IsFor <;> infer_instance

theorem Tunnel.namesNoOther_congr {number : Nat} {tunnels after : List Tunnel}
    (hsame : after.map (·.identity) = tunnels.map (·.identity)) (identity : String) :
    NamesNoOther number after identity ↔ NamesNoOther number tunnels identity := by
  have hnames (tunnels : List Tunnel) : NamesNoOther number tunnels identity ↔
      ∀ (other : Nat) (i : Identity), (tunnels.map (·.identity))[other]? = some i →
        i.text = identity → other = number := by
    simp [NamesNoOther]
  rw [hnames, hnames, hsame]

theorem Request.isFor_congr {number : Nat} {tunnels after : List Tunnel}
    (hsame : after.map (·.identity) = tunnels.map (·.identity)) (r : Request) :
    r.IsFor number after ↔ r.IsFor number tunnels := by
  unfold IsFor
  split
  · rfl
  · rfl
  · exact Tunnel.namesNoOther_congr hsame _
  · exact Tunnel.namesNoOther_congr hsame _

/-- What an action is for depends on the identities alone, which nobody changes. -/
theorem CallAction.isFor_congr {number : Nat} {tunnels after : List Tunnel}
    (hsame : after.map (·.identity) = tunnels.map (·.identity)) (action : CallAction) :
    action.IsFor number after ↔ action.IsFor number tunnels := by
  cases action with
  | request r => exact r.isFor_congr hsame
  | _ => rfl

namespace Hub

/-- A step that is about the tunnel with this number: the client of a request acts, the request is
handled, its stream goes on, or something happens at the remote end. -/
inductive IsStepFor (own : String → Option Nat) (number : Nat) (h : Hub) : Move → Prop where
  | client {name : String} {action : CallAction} (hown : own name = some number)
      (haction : action.IsFor number h.tunnels) : IsStepFor own number h (.act (.call name action))
  | call {i : Nat} {c : Call} (hc : h.calls[i]? = some c) (hown : own c.name = some number) :
      IsStepFor own number h (.go (.call i))
  | stream {j : Nat} {s : Stream} (hs : h.streams[j]? = some s) (htunnel : s.tunnel = number) :
      IsStepFor own number h (.go (.stream j))
  | feed (arrivals : List Arrival) : IsStepFor own number h (.act (.feed number arrivals))
  | setManner (manner : Sink.Manner) : IsStepFor own number h (.act (.setManner number manner))

variable {own : String → Option Nat} {number i : Nat} {h next : Hub} {c c' : Call}

/-! ## How each changes its own part only -/

/-- The calls of a tunnel are about that tunnel. -/
theorem IsParted.isAbout (hparted : h.IsParted own) (hc : h.calls[i]? = some c)
    (hown : own c.name = some number) : c.IsAbout number h.streams :=
  hparted.calls c (List.mem_of_getElem? hc) number hown

/-- The general step of a call: what changes is at the tunnel that its call is about. -/
theorem IsParted.changesAt_setCall (hparted : h.IsParted own) (hc : h.calls[i]? = some c)
    (hown : own c.name = some number) {registry : Registry} {tunnels : List Tunnel}
    {streams : List Stream} (hregistry : h.registry.ChangeAt number h.tunnels registry)
    (htunnels : Tunnel.ChangeAt number h.tunnels tunnels)
    (hstreams : Stream.ChangeAt number h.streams streams) (hname : c'.name = c.name)
    (habout : c'.IsAbout number streams) :
    h.ChangesAt own number ({ h with registry, tunnels, streams }.setCall i c') where
  clock := rfl
  now := rfl
  sweepers := rfl
  registry := hregistry
  tunnels := htunnels
  streams := hstreams
  calls := by
    refine callsChangeAt_set (fun other hother hof => ?_) hc hown hname habout
    exact (hparted.calls other hother number hof).congr hstreams.numbering

/-- Only the call changes. -/
theorem IsParted.changesAt_call (hparted : h.IsParted own) (hc : h.calls[i]? = some c)
    (hown : own c.name = some number) (hname : c'.name = c.name)
    (habout : c'.IsAbout number h.streams) : h.ChangesAt own number (h.setCall i c') :=
  hparted.changesAt_setCall hc hown (Registry.changeAt_refl number hparted.proper)
    (Tunnel.changeAt_refl number _) (Stream.changeAt_refl number _) hname habout

end Hub

/-- A call that has its response is about the tunnel that the body is from. -/
theorem Call.IsAbout.answered {number : Nat} {streams : List Stream} {c : Call}
    (habout : c.IsAbout number streams) (head : Head) {body : Body} (hold : Bool)
    (hbody : ∀ j, body = .stream j → ∃ s, streams[j]? = some s ∧ s.tunnel = number) :
    (c.answered head body hold).IsAbout number streams where
  task task htask := by
    cases hold with
    | true => cases htask
    | false =>
        cases htask
        trivial
  readerHold := habout.readerHold
  writerHold := habout.writerHold
  body j heq := hbody j (Option.some.inj heq)

namespace Hub

variable {own : String → Option Nat} {number i : Nat} {h next : Hub} {c c' : Call}

/-- A call that is answered at once. -/
theorem IsParted.changesAt_respond (hparted : h.IsParted own) (hc : h.calls[i]? = some c)
    (hown : own c.name = some number) {registry : Registry}
    (hregistry : h.registry.ChangeAt number h.tunnels registry) (hname : c'.name = c.name)
    (habout : c'.IsAbout number h.streams) (head : Head) (body : Body) (hold : Bool)
    (hbody : ∀ j, body ≠ .stream j) :
    h.ChangesAt own number ({ h with registry }.respond i c' head body hold) :=
  hparted.changesAt_setCall hc hown hregistry (Tunnel.changeAt_refl number _)
    (Stream.changeAt_refl number _) hname
    (habout.answered head hold fun j heq => absurd heq (hbody j))

/-- Connecting registers the tunnel of the call. -/
theorem IsParted.changesAt_connect (hparted : h.IsParted own) (hc : h.calls[i]? = some c)
    (hown : own c.name = some number) (hname : c'.name = c.name)
    (habout : c'.IsAbout number h.streams) {r : Request}
    (hfor : ∀ other, r.connection = .ok other → other = number) :
    h.ChangesAt own number (h.connect i c' r) := by
  have hnone := hparted.changesAt_respond hc hown (Registry.changeAt_refl number hparted.proper)
    hname habout (.ofFailure .notCreated) .empty r.hold (by simp)
  unfold connect
  split
  · exact hnone
  next other hconnection =>
    obtain rfl := hfor other hconnection
    split
    · exact hnone
    next t ht =>
      exact hparted.changesAt_respond hc hown
        (Registry.changeAt_put hparted.proper ht (hparted.reserves ht) h.now) hname habout _ _ _
        (by simp)

/-- What is registered under an identity that no other tunnel has is about the tunnel. -/
theorem IsParted.reserves_of_isFor (hparted : h.IsParted own) {identity : String}
    (hfor : Tunnel.NamesNoOther number h.tunnels identity) :
    h.registry.Reserves identity number := by
  rintro e he rfl
  obtain ⟨t, ht, hidentity⟩ := hparted.proper e he
  exact hfor e.tunnel t ht hidentity

/-- A ticket is drawn at the tunnel of the call, if one is. -/
theorem IsParted.changesAt_enqueue (hparted : h.IsParted own) (hc : h.calls[i]? = some c)
    (hown : own c.name = some number) (hname : c'.name = c.name)
    (habout : c'.IsAbout number h.streams) (r : Request) {identity : String}
    (hfor : Tunnel.NamesNoOther number h.tunnels identity)
    (role : Role) (handling : Nat → Handling) :
    h.ChangesAt own number (h.enqueue i c' r identity role handling) := by
  have hreserves := hparted.reserves_of_isFor hfor
  have hnone := hparted.changesAt_respond hc hown (Registry.changeAt_refl number hparted.proper)
    hname habout (.ofFailure .noSuchTunnel) .empty r.hold (by simp)
  unfold enqueue
  dsimp only
  split
  · exact hnone
  next found hfound =>
    -- Whoever is found under the identity is the tunnel itself, since no other has it.
    have hsame : found = number := by
      rcases hreserves.find?_eq with hnone | hsome
      · rw [Registry.get, hnone] at hfound
        cases hfound
      · rw [Registry.get, hsome] at hfound
        exact (Option.some.inj hfound).symm
    subst hsame
    split
    · exact hnone
    next t ht =>
      refine hparted.changesAt_setCall hc hown
        (Registry.changeAt_touch hparted.proper hreserves h.now)
        (Tunnel.changeAt_set ht (t.identity_draw role)) (Stream.changeAt_refl _ _) hname
        { habout with task := ?_ }
      rintro task ⟨⟩
      rfl

/-- A request changes the part of its own tunnel, whatever it asks for. -/
theorem IsParted.changesAt_startRequest (hparted : h.IsParted own) (hc : h.calls[i]? = some c)
    (hown : own c.name = some number) {r : Request} (hfor : r.IsFor number h.tunnels) :
    h.ChangesAt own number (h.startRequest i c r) := by
  have habout : (c.asking r).IsAbout number h.streams := { hparted.isAbout hc hown with }
  have hname : (c.asking r).name = c.name := rfl
  unfold Request.IsFor at hfor
  unfold startRequest
  dsimp only
  split
  next failure hquery =>
    exact hparted.changesAt_respond hc hown (Registry.changeAt_refl number hparted.proper)
      hname habout _ .empty _ (by simp)
  next hquery =>
    rw [hquery] at hfor
    exact hparted.changesAt_connect hc hown hname habout hfor
  next identity hquery =>
    rw [hquery] at hfor
    exact hparted.changesAt_enqueue hc hown hname habout r hfor .reader _
  next identity hquery =>
    rw [hquery] at hfor
    exact hparted.changesAt_enqueue hc hown hname habout r hfor .writer _

end Hub

/-! ### What a client lets go of -/

namespace Call

variable {number i : Nat} {tunnels : List Tunnel} {streams : List Stream} {c : Call}

/-- The tunnels once the request of a call has given up its seat, or its place in the queue. -/
def leaves (c : Call) (tunnels : List Tunnel) : List Tunnel :=
  match c.task with
  | some (.handle number handling _) => tunnels.modify number handling.abandon
  | _ => tunnels

/-- The streams once the client of a call is gone. -/
def letsGo (c : Call) (streams : List Stream) : List Stream :=
  match c.body with
  | some (.stream j) =>
    streams.modify j fun s => { s with outlet := { s.outlet with abandoned := true } }
  | _ => streams

/-- The seats that a call gives back are at its tunnel. -/
theorem IsAbout.changeAt_leaves (habout : c.IsAbout number streams) (tunnels : List Tunnel) :
    Tunnel.ChangeAt number tunnels (c.leaves tunnels) := by
  unfold leaves
  split
  next other handling hold htask =>
    obtain rfl : other = number := habout.task _ htask
    refine Tunnel.changeAt_modify (fun t => ?_) other tunnels
    rw [handling.abandon_eq, Tunnel.identity_leave]
    split <;> rfl
  · exact Tunnel.changeAt_refl number tunnels

/-- The response that a client lets go of is from its tunnel. -/
theorem IsAbout.changeAt_letsGo (habout : c.IsAbout number streams) :
    Stream.ChangeAt number streams (c.letsGo streams) := by
  unfold letsGo
  split
  next j hbody =>
    obtain ⟨s, hs, htunnel⟩ := habout.body j hbody
    exact Stream.changeAt_modify (fun _ => rfl) hs htunnel
  · exact Stream.changeAt_refl number streams

theorem IsAbout.abortTask_eq (habout : c.IsAbout number streams) (h : Hub) (i : Nat) :
    h.abortTask i c =
      { h with tunnels := c.leaves h.tunnels }.setCall i { c with task := none } := by
  unfold Hub.abortTask leaves
  cases htask : c.task with
  | none => rfl
  | some task =>
      have hcase := habout.task task htask
      cases task with
      | handle other handling hold => rfl
      | readBody appetite => rfl
      | acquire | readSome | readInstruction | write | flush | shutdown | close | sweep | watch =>
          cases hcase

theorem IsAbout.releaseAll_eq (habout : c.IsAbout number streams) (h : Hub) (i : Nat) :
    h.releaseAll i c =
      { h with tunnels := c.leaves h.tunnels }.setCall i
        { c with task := none, readerHold := none, writerHold := none } := by
  unfold Hub.releaseAll
  rw [habout.abortTask_eq h i, habout.readerHold, habout.writerHold]
  simp only [Hub.leave?, Hub.setCall, List.set_set]

theorem IsAbout.dropClient_eq (habout : c.IsAbout number streams) (h : Hub) (i : Nat) :
    h.dropClient i c =
      { h with tunnels := c.leaves h.tunnels, streams := c.letsGo h.streams }.setCall i
        { c with task := none, body := none } := by
  unfold Hub.dropClient letsGo
  rw [habout.abortTask_eq h i]
  dsimp only
  cases c.body with
  | none => simp only [Hub.setCall, List.set_set]
  | some body => cases body <;> simp only [Hub.dropBody, Hub.setCall, List.set_set]

theorem IsAbout.idle (habout : c.IsAbout number streams) :
    Call.IsAbout number streams { c with task := none } :=
  { habout with task := by rintro _ ⟨⟩ }

end Call

namespace Hub

variable {own : String → Option Nat} {number i : Nat} {h next : Hub} {c c' : Call}

/-- What a user does through a call, one case per action. -/
theorem IsParted.changesAt_applyCall (hparted : h.IsParted own) (hc : h.calls[i]? = some c)
    (hown : own c.name = some number) {action : CallAction}
    (hfor : action.IsFor number h.tunnels) :
    h.ChangesAt own number (h.applyCall i c action).2 := by
  have habout := hparted.isAbout hc hown
  have hregistry := Registry.changeAt_refl number hparted.proper
  have hleaves := habout.changeAt_leaves h.tunnels
  cases action with
  | request r => exact hparted.changesAt_startRequest hc hown hfor
  | upload parts last =>
      simp only [applyCall]
      split
      · exact hparted.changesAt_call hc hown rfl { habout with }
      · exact hparted.changesAt_refl number
  | pull =>
      simp only [applyCall]
      split
      · refine hparted.changesAt_call hc hown rfl { habout with task := ?_ }
        rintro task ⟨⟩
        trivial
      · exact hparted.changesAt_refl number
  | abort =>
      simp only [applyCall, habout.abortTask_eq]
      exact hparted.changesAt_setCall hc hown hregistry hleaves (Stream.changeAt_refl number _) rfl
        habout.idle
  | release =>
      simp only [applyCall, habout.releaseAll_eq]
      exact hparted.changesAt_setCall hc hown hregistry hleaves (Stream.changeAt_refl number _) rfl
        { habout.idle with readerHold := rfl, writerHold := rfl }
  | drop =>
      simp only [applyCall, habout.dropClient_eq]
      exact hparted.changesAt_setCall hc hown hregistry hleaves habout.changeAt_letsGo rfl
        { habout.idle with body := by rintro _ ⟨⟩ }
  | acquire | readSome | readInstruction | available | writeAll | writeInstruction | flush
  | shutdown | close | sweep | keepSweeping | stopSweeping => cases hfor

/-- A call that is made by its name is about whatever it likes. -/
theorem IsParted.changesAt_withCall (hparted : h.IsParted own) {name : String}
    (hown : own name = some number) : h.ChangesAt own number (h.withCall name).2 := by
  have habout : ∀ c ∈ h.calls, own c.name = some number → c.IsAbout number h.streams :=
    fun c hc => hparted.calls c hc number
  unfold withCall
  split
  · exact hparted.changesAt_refl number
  · exact { hparted.changesAt_refl number with
      calls := callsChangeAt_append habout hown (Call.isAbout_new name number h.streams) }

theorem exists_withCall (h : Hub) (name : String) :
    ∃ c, (h.withCall name).2.calls[(h.withCall name).1]? = some c ∧ c.name = name := by
  unfold withCall
  split
  next i hfound =>
    obtain ⟨hlt, hname, _⟩ := List.findIdx?_eq_some_iff_getElem.mp hfound
    exact ⟨h.calls[i], List.getElem?_eq_getElem hlt, of_decide_eq_true hname⟩
  · exact ⟨{ name }, List.getElem?_concat_length, rfl⟩

/-- The same under the name of the call. -/
theorem IsParted.changesAt_apply (hparted : h.IsParted own) {name : String} {action : CallAction}
    (hown : own name = some number) (hfor : action.IsFor number h.tunnels) :
    h.ChangesAt own number (h.apply (.call name action)).2 := by
  have hcalled := hparted.changesAt_withCall hown
  have hparted' := hparted.of_changesAt hcalled
  obtain ⟨c, hc, hname⟩ := h.exists_withCall name
  rw [← hname] at hown
  rw [← h.tunnels_withCall name] at hfor
  unfold apply
  simp only [hc]
  split
  · exact hcalled
  · exact hcalled.trans (hparted'.changesAt_applyCall hc hown hfor)

/-- What a step takes out of the registry is about the tunnel. -/
theorem IsParted.changeAt_registry (hparted : h.IsParted own) {t : Tunnel}
    (ht : h.tunnels[number]? = some t) {after : Registry}
    (hregistry : after = h.registry ∨ after = h.registry.erase t.identity.text) :
    h.registry.ChangeAt number h.tunnels after := by
  rcases hregistry with rfl | rfl
  · exact Registry.changeAt_refl number hparted.proper
  · exact Registry.changeAt_erase hparted.proper (hparted.reserves ht)

/-- How the handling of a request goes on. -/
theorem IsParted.changesAt_takeProgress (hparted : h.IsParted own) (hc : h.calls[i]? = some c)
    (hown : own c.name = some number) {handling : Handling} {t : Tunnel}
    (ht : h.tunnels[number]? = some t) (hold : Bool) {progress : Handling.Progress}
    {after : Handling.Surroundings}
    (hstep : handling.Step h.registry t c.upload progress after) :
    h.ChangesAt own number (h.takeProgress i c number hold progress after) := by
  have habout := hparted.isAbout hc hown
  have hregistry := hparted.changeAt_registry ht hstep.registry_eq
  have hbecomes : t.Becomes .all after.tunnel :=
    hstep.becomes (fun _ _ _ => trivial) fun _ => trivial
  have htunnels := Tunnel.changeAt_set ht hbecomes.identity_eq
  have hstreams := Stream.changeAt_refl number h.streams
  cases progress with
  | goOn handling =>
      refine hparted.changesAt_setCall hc hown hregistry htunnels hstreams rfl
        { habout with task := ?_ }
      rintro task ⟨⟩
      rfl
  | answer head =>
      have hused : Call.IsAbout number h.streams { c with upload := after.upload } :=
        { habout with }
      exact hparted.changesAt_setCall hc hown hregistry htunnels hstreams rfl
        (hused.answered head hold (by rintro _ ⟨⟩))
  | stream ticket =>
      -- The body is that of the new stream, which comes behind all others.
      have hstarts := Stream.changeAt_append h.streams
        (s := Stream.start h.clock number ticket after.tunnel) rfl
      have hused : Call.IsAbout number h.streams { c with upload := after.upload } :=
        { habout with }
      refine hparted.changesAt_setCall hc hown hregistry htunnels hstarts rfl
        ((hused.congr hstarts.numbering).answered .reading hold ?_)
      rintro j ⟨⟩
      exact ⟨_, List.getElem?_concat_length, rfl⟩

theorem IsParted.changesAt_resumeReadBody (hparted : h.IsParted own) (hc : h.calls[i]? = some c)
    (hown : own c.name = some number) {appetite : Appetite}
    (hnext : h.resumeReadBody i c appetite = some next) : h.ChangesAt own number next := by
  have habout := hparted.isAbout hc hown
  have hregistry := Registry.changeAt_refl number hparted.proper
  have hended : h.ChangesAt own number (h.endBody i c appetite) := by
    cases appetite with
    | everything =>
        exact hparted.changesAt_call hc hown rfl { habout.idle with body := by rintro _ ⟨⟩ }
    | oneChunk => exact hparted.changesAt_call hc hown rfl { habout.idle with }
  have htaken {streams : List Stream} (hstreams : Stream.ChangeAt number h.streams streams)
      (body : Body) (bytes : List UInt8)
      (hbody : ∀ j, body = .stream j → ∃ s, streams[j]? = some s ∧ s.tunnel = number) :
      h.ChangesAt own number ({ h with streams }.takeChunk i c body bytes appetite) := by
    have hafter : Call.IsAbout number streams { c with body := some body } :=
      { habout.congr hstreams.numbering with body := fun j heq => hbody j (Option.some.inj heq) }
    cases appetite with
    | everything =>
        exact hparted.changesAt_setCall hc hown hregistry (Tunnel.changeAt_refl number _) hstreams
          rfl { hafter with }
    | oneChunk =>
        exact hparted.changesAt_setCall hc hown hregistry (Tunnel.changeAt_refl number _) hstreams
          rfl { hafter.idle with }
  obtain ⟨body, hbody, hrest⟩ := exists_of_bind_eq_some hnext
  cases body with
  | empty =>
      cases hrest
      exact hended
  | text bytes =>
      cases hrest
      exact htaken (Stream.changeAt_refl number _) .empty bytes (by rintro _ ⟨⟩)
  | stream j =>
      obtain ⟨s, hs, hportion⟩ := exists_of_bind_eq_some hrest
      obtain ⟨s', hs', htunnel⟩ := habout.body j hbody
      obtain rfl := Option.some.inj (hs.symm.trans hs')
      split at hportion
      next bytes outlet htake =>
        cases hportion
        have hset : Stream.ChangeAt number h.streams (h.streams.set j { s with outlet }) :=
          Stream.changeAt_set hs htunnel rfl
        refine htaken hset _ bytes ?_
        rintro k ⟨⟩
        exact ⟨_, getElem?_set_of_getElem? hs, htunnel⟩
      · cases hportion
        exact hended
      · cases hportion

/-- How a call goes on, one case per task. -/
theorem IsParted.changesAt_resumeCall (hparted : h.IsParted own) (hc : h.calls[i]? = some c)
    (hown : own c.name = some number) (hnext : h.resumeCall i = some next) :
    h.ChangesAt own number next := by
  obtain ⟨c', hc', hrest⟩ := exists_of_bind_eq_some hnext
  obtain rfl := Option.some.inj (hc.symm.trans hc')
  obtain ⟨task, htask, hstep⟩ := exists_of_bind_eq_some hrest
  have hcase := (hparted.isAbout hc hown).task task htask
  cases task with
  | handle other handling hold =>
      obtain rfl : other = number := hcase
      obtain ⟨t, progress, after, ht, hhandling, rfl⟩ := exists_of_resumeHandling hstep
      exact hparted.changesAt_takeProgress hc hown ht hold hhandling
  | readBody appetite => exact hparted.changesAt_resumeReadBody hc hown hstep
  | acquire | readSome | readInstruction | write | flush | shutdown | close | sweep | watch =>
      cases hcase

/-- How a stream goes on. -/
theorem IsParted.changesAt_resumeStream (hparted : h.IsParted own) {j : Nat} {s : Stream}
    (hs : h.streams[j]? = some s) (hnext : h.resumeStream j = some next) :
    h.ChangesAt own s.tunnel next := by
  obtain ⟨s₀, s', t, after, hs₀, ht, hstep, rfl⟩ := streamStep_resumeStream hnext
  obtain rfl := Option.some.inj (hs.symm.trans hs₀)
  have hbecomes : t.Becomes .all after.tunnel :=
    hstep.becomes fun _ => trivial
  have hstreams : Stream.ChangeAt s.tunnel h.streams (h.streams.set j s') :=
    Stream.changeAt_set hs rfl hstep.place.1
  exact { hparted.changesAt_refl s.tunnel with
    registry := hparted.changeAt_registry ht hstep.registry_eq
    tunnels := Tunnel.changeAt_set ht hbecomes.identity_eq
    streams := hstreams
    calls := callsChangeAt_refl fun c hc hown =>
      (hparted.calls c hc _ hown).congr hstreams.numbering }

/-- A step that is about one tunnel changes nothing but what is about it. -/
theorem IsParted.changesAt_after? (hparted : h.IsParted own) {move : Move}
    (hfor : h.IsStepFor own number move) (hmove : h.after? move = some next) :
    h.ChangesAt own number next := by
  cases hfor with
  | client hown haction =>
      cases hmove
      exact hparted.changesAt_apply hown haction
  | call hc hown => exact hparted.changesAt_resumeCall hc hown hmove
  | stream hs htunnel =>
      subst htunnel
      exact hparted.changesAt_resumeStream hs hmove
  | feed _ | setManner _ =>
      cases hmove
      refine { hparted.changesAt_refl number with tunnels := ?_ }
      exact Tunnel.changeAt_modify (by intro t; rfl) number h.tunnels

end Hub

end LongPollTunnel

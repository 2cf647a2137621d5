import LongPollTunnel.Proofs.Locality

/-! # What a part does by itself

What a request does is decided by the part of the hub that is about its tunnel, and by nothing
else. Main statement: a step that is about a tunnel is a step of its part, with the numbers that
calls and streams have there.
-/

namespace LongPollTunnel

/-! ## What goes on without a look at other tunnels -/

namespace Handling

/-- The surroundings as seen from the tunnel with this number. -/
def Surroundings.about (around : Surroundings) (number : Nat) : Surroundings :=
  { around with registry := around.registry.about number }

variable {number : Nat}

/-- A relay tears down its own tunnel only. -/
theorem failRelay_about (ticket : Nat) (failure : Failure) (around : Surroundings) :
    failRelay ticket failure (around.about number) =
      ((failRelay ticket failure around).1, (failRelay ticket failure around).2.about number) := by
  rw [failRelay_eq, failRelay_eq]
  simp only [Surroundings.about, Registry.about_erase]

theorem relayRest_about (ticket : Nat) (rest : List UInt8) (around : Surroundings) :
    relayRest ticket rest (around.about number) =
      ((relayRest ticket rest around).1, (relayRest ticket rest around).2.about number) := by
  have htunnel : (around.about number).tunnel = around.tunnel := rfl
  unfold relayRest
  rw [htunnel]
  split
  · rfl
  · rfl
  next failure after _ =>
    exact failRelay_about ticket (.relaying failure) { around with tunnel := after }

theorem finishRelay_about (ticket : Nat) (around : Surroundings) :
    finishRelay ticket (around.about number) =
      (finishRelay ticket around).map fun p => (p.1, p.2.about number) := by
  have htunnel : (around.about number).tunnel = around.tunnel := rfl
  unfold finishRelay
  rw [htunnel]
  split
  · rfl
  next failure after _ =>
    exact congrArg some (failRelay_about ticket (.relaying failure) { around with tunnel := after })
  · rfl

/-- How a relay goes on does not depend on what is registered for others. -/
theorem relayNext_about (ticket : Nat) (around : Surroundings) :
    relayNext ticket (around.about number) =
      (relayNext ticket around).map fun p => (p.1, p.2.about number) := by
  have hupload : (around.about number).upload = around.upload := rfl
  unfold relayNext
  rw [hupload]
  split
  next bytes parts _ =>
    exact congrArg some (relayRest_about ticket bytes
      { around with upload := { around.upload with parts } })
  next fault parts _ =>
    exact congrArg some (failRelay_about ticket (.bodyUnreadable fault.message)
      { around with upload := { around.upload with parts } })
  · split
    · rfl
    · exact finishRelay_about ticket around

/-- A request goes on without a look at what else is registered. -/
theorem step_about (handling : Handling) (around : Surroundings) :
    handling.step (around.about number) =
      (handling.step around).map fun p => (p.1, p.2.about number) := by
  have htunnel : (around.about number).tunnel = around.tunnel := rfl
  cases handling with
  | awaitReader ticket =>
      simp only [step, htunnel]
      split <;> rfl
  | awaitWriter ticket =>
      simp only [step, htunnel]
      split <;> rfl
  | relaying ticket rest =>
      cases rest with
      | none => exact relayNext_about ticket around
      | some rest =>
          simp only [step, relayRest_about ticket rest around]
          split <;> rfl
  | closing failure ticket =>
      simp only [step, htunnel]
      split <;> rfl

end Handling

namespace Stream

/-- The surroundings as seen from the tunnel with this number. -/
def Surroundings.about (around : Surroundings) (number : Nat) : Surroundings :=
  { around with registry := around.registry.about number }

variable {number : Nat}

theorem afterTeardown_about (s : Stream) (failure : Failure) (around : Surroundings) :
    s.afterTeardown failure (around.about number) =
      ((s.afterTeardown failure around).1.about number, (s.afterTeardown failure around).2) := by
  unfold afterTeardown
  split <;> rfl

/-- Nor does how a stream fails. -/
theorem fail_about (s : Stream) (failure : Failure) (around : Surroundings) :
    s.fail failure (around.about number) =
      ((s.fail failure around).1.about number, (s.fail failure around).2) := by
  have htunnel : (around.about number).tunnel = around.tunnel := rfl
  have hregistry : (around.about number).registry = around.registry.about number := rfl
  rw [fail_eq, fail_eq, htunnel, hregistry, ← Registry.about_erase]
  cases around.tunnel.close.1 with
  | done result =>
      exact s.afterTeardown_about failure
        ⟨around.registry.erase around.tunnel.identity.text, around.tunnel.close.2⟩
  | waiting ticket => rfl

theorem yield_about (now : Nat) (s : Stream) (around : Surroundings) :
    s.yield now (around.about number) =
      ((s.yield now around).1.about number, (s.yield now around).2) := by
  have htunnel : (around.about number).tunnel = around.tunnel := rfl
  unfold yield
  rw [htunnel]
  split <;> rfl

/-- Nor what it finds when it looks ahead. -/
theorem lookAhead_about (now : Nat) (s : Stream) (around : Surroundings) :
    s.lookAhead now (around.about number) =
      ((s.lookAhead now around).1.about number, (s.lookAhead now around).2) := by
  have htunnel : (around.about number).tunnel = around.tunnel := rfl
  unfold lookAhead
  rw [htunnel]
  split
  next after _ => exact s.yield_about now { around with tunnel := after }
  · rfl

theorem write_about (now : Nat) (s : Stream) (batch : List UInt8) (around : Surroundings) :
    s.write now batch (around.about number) =
      ((s.write now batch around).1.about number, (s.write now batch around).2) := by
  unfold write
  dsimp only
  split
  · rfl
  · exact lookAhead_about now _ around

/-- A stream goes on without a look at what else is registered. -/
theorem step_about (now : Nat) (s : Stream) (around : Surroundings) :
    s.step now (around.about number) =
      (s.step now around).map fun p => (p.1.about number, p.2) := by
  have htunnel : (around.about number).tunnel = around.tunnel := rfl
  unfold step
  rw [htunnel]
  split
  next deadline _ =>
    split
    · rfl
    next batch after _ _ =>
      exact congrArg some (s.write_about now batch { around with tunnel := after })
    next failure after _ =>
      exact congrArg some (s.fail_about failure { around with tunnel := after })
    · split <;> rfl
  next next _ =>
    split
    next outlet _ =>
      cases next with
      | lookAhead => exact congrArg some (lookAhead_about now { s with outlet } around)
      | yield => exact congrArg some (yield_about now { s with outlet } around)
      | leave => rfl
    · cases next with
      | lookAhead => exact congrArg some (s.fail_about .clientGone around)
      | yield => exact congrArg some (s.fail_about .clientGone around)
      | leave => rfl
    · rfl
  next failure ticket _ =>
    split
    next result after _ =>
      exact congrArg some (s.afterTeardown_about failure { around with tunnel := after })
    · rfl
  · rfl

end Stream

namespace Hub

variable {own : String → Option Nat} {number i j : Nat} {h next : Hub} {c c' : Call}

/-! ## What is in a part -/

/-- The number that a call has among those that are about the tunnel with this number. -/
def callPlace (own : String → Option Nat) (number : Nat) (h : Hub) (i : Nat) : Nat :=
  placeOf (own ·.name = some number) h.calls i

/-- A call of the tunnel is found in its part, at its place there. -/
theorem getElem?_calls_part (hc : h.calls[i]? = some c) (hown : own c.name = some number) :
    (h.part own number).calls[h.callPlace own number i]? = some (c.within number h.streams) := by
  have hplace : (callsOf own (some number) h.calls)[h.callPlace own number i]? = some c :=
    getElem?_filter_placeOf hc (decide_eq_true hown)
  unfold part
  dsimp only
  rw [List.getElem?_map, hplace, Option.map_some]

/-- So is the tunnel, under its own number. -/
theorem getElem?_tunnels_part (h : Hub) :
    (h.part own number).tunnels[number]? = h.tunnels[number]? :=
  Tunnel.getElem?_onlyAt_self number h.tunnels

/-- So are its streams. -/
theorem getElem?_streams_part {s : Stream} (hs : h.streams[j]? = some s)
    (htunnel : s.tunnel = number) :
    (h.part own number).streams[Stream.placeOn number h.streams j]? = some s :=
  getElem?_filter_placeOf hs (decide_eq_true htunnel)

theorem filter_streams_set {streams : List Stream} {s s' : Stream} (hs : streams[j]? = some s)
    (htunnel : s.tunnel = number) (hsame : s'.tunnel = number) :
    (streams.set j s').filter (·.tunnel = number) =
      (streams.filter (·.tunnel = number)).set (Stream.placeOn number streams j) s' :=
  filter_set_of_keep hs (decide_eq_true htunnel) (decide_eq_true hsame)

/-- A call that is put back is put back in the part. -/
theorem IsParted.part_setCall (hparted : h.IsParted own) (hc : h.calls[i]? = some c)
    (hown : own c.name = some number) (registry : Registry) (tunnels : List Tunnel)
    {streams : List Stream} (hstreams : Stream.ChangeAt number h.streams streams) (c' : Call)
    (hname : c'.name = c.name) :
    ({ h with registry, tunnels, streams }.setCall i c').part own number =
      { h.part own number with
        registry := registry.about number
        tunnels := Tunnel.onlyAt number tunnels
        streams := streams.filter (·.tunnel = number) }.setCall (h.callPlace own number i)
        (c'.within number streams) := by
  have hkept : callsOf own (some number) (h.calls.set i c') =
      (callsOf own (some number) h.calls).set (h.callPlace own number i) c' :=
    filter_set_of_keep hc (decide_eq_true hown) (decide_eq_true (by rw [hname, hown]))
  have hwithin := hparted.within_eq hstreams number
  unfold part setCall
  dsimp only
  rw [hkept, List.map_set, hwithin]

/-- Only the call changes. -/
theorem IsParted.part_setCall_self (hparted : h.IsParted own) (hc : h.calls[i]? = some c)
    (hown : own c.name = some number) (hname : c'.name = c.name) :
    (h.setCall i c').part own number =
      (h.part own number).setCall (h.callPlace own number i) (c'.within number h.streams) :=
  hparted.part_setCall hc hown h.registry h.tunnels (Stream.changeAt_refl number h.streams) c' hname

theorem within_answered (c : Call) (streams : List Stream) (head : Head) (body : Body)
    (hold : Bool) :
    (c.answered head body hold).within number streams =
      (c.within number streams).answered head (body.within number streams) hold := rfl

theorem IsParted.part_respond (hparted : h.IsParted own) (hc : h.calls[i]? = some c)
    (hown : own c.name = some number) (registry : Registry) (hname : c'.name = c.name)
    (head : Head) (body : Body) (hbody : body.within number h.streams = body) (hold : Bool) :
    ({ h with registry }.respond i c' head body hold).part own number =
      { h.part own number with registry := registry.about number }.respond
        (h.callPlace own number i) (c'.within number h.streams) head body hold := by
  have hset := hparted.part_setCall hc hown registry h.tunnels
    (Stream.changeAt_refl number h.streams) (c'.answered head body hold) hname
  rw [within_answered, hbody] at hset
  exact hset

theorem IsParted.part_connect (hparted : h.IsParted own) (hc : h.calls[i]? = some c)
    (hown : own c.name = some number) (hname : c'.name = c.name) {r : Request}
    (hfor : ∀ other, r.connection = .ok other → other = number) :
    (h.connect i c' r).part own number =
      (h.part own number).connect (h.callPlace own number i) (c'.within number h.streams) r := by
  have hnone := hparted.part_respond hc hown h.registry hname (.ofFailure .notCreated) .empty
    rfl r.hold
  unfold connect
  cases hconnection : r.connection with
  | error failure => exact hnone
  | ok other =>
      obtain rfl := hfor other hconnection
      dsimp only
      rw [getElem?_tunnels_part]
      split
      · exact hnone
      next t ht =>
        have hput := hparted.part_respond hc hown
          (h.registry.put t.identity.text other h.now) hname .created
          (.text (Utf8.ofString t.identity.text)) rfl r.hold
        rw [Registry.about_put_self] at hput
        exact hput

/-- The same tunnel is found in the part, and the same ticket drawn. -/
theorem IsParted.part_enqueue (hparted : h.IsParted own) (hc : h.calls[i]? = some c)
    (hown : own c.name = some number) (hname : c'.name = c.name) (r : Request) {identity : String}
    (hfor : Tunnel.NamesNoOther number h.tunnels identity)
    (role : Role) (handling : Nat → Handling) :
    (h.enqueue i c' r identity role handling).part own number =
      (h.part own number).enqueue (h.callPlace own number i) (c'.within number h.streams) r identity
        role handling := by
  have hreserves := hparted.reserves_of_isFor hfor
  have hfound : (h.part own number).registry.find? identity = h.registry.find? identity :=
    Registry.find?_about hreserves
  have hnone := hparted.part_respond hc hown h.registry hname (.ofFailure .noSuchTunnel) .empty
    rfl r.hold
  unfold enqueue
  simp only [Registry.get, hfound]
  rcases hreserves.find?_eq with hlost | hthere
  · rw [hlost]
    exact hnone
  · rw [hthere]
    dsimp only
    rw [getElem?_tunnels_part]
    split
    · exact hnone
    next t ht =>
      have hset := hparted.part_setCall hc hown (h.registry.touch identity h.now)
        (h.tunnels.set number (t.draw role).2) (Stream.changeAt_refl number h.streams)
        { c' with task := some (.handle number (handling (t.draw role).1) r.hold) } hname
      rw [Registry.about_touch, Tunnel.onlyAt_set] at hset
      exact hset

/-- A request starts in the part as it does in the whole. -/
theorem IsParted.part_startRequest (hparted : h.IsParted own) (hc : h.calls[i]? = some c)
    (hown : own c.name = some number) {r : Request} (hfor : r.IsFor number h.tunnels) :
    (h.startRequest i c r).part own number =
      (h.part own number).startRequest (h.callPlace own number i) (c.within number h.streams)
        r := by
  have hname : (c.asking r).name = c.name := rfl
  unfold Request.IsFor at hfor
  unfold startRequest
  cases hquery : Operation.ofQuery r.query with
  | error failure => exact hparted.part_respond hc hown h.registry hname _ .empty rfl r.hold
  | ok operation =>
      rw [hquery] at hfor
      cases operation with
      | connect => exact hparted.part_connect hc hown hname hfor
      | read identity => exact hparted.part_enqueue hc hown hname r hfor .reader .awaitReader
      | write identity => exact hparted.part_enqueue hc hown hname r hfor .writer .awaitWriter

end Hub

namespace Call

variable {number i : Nat} {streams : List Stream} {c : Call}

/-- In the part that a call is about it is still about its tunnel. -/
theorem IsAbout.within (habout : c.IsAbout number streams) :
    (c.within number streams).IsAbout number (streams.filter (·.tunnel = number)) where
  task := habout.task
  readerHold := habout.readerHold
  writerHold := habout.writerHold
  body j hbody := by
    obtain ⟨own, howned, hwithin⟩ := Option.map_eq_some_iff.mp hbody
    cases own with
    | empty | text bytes => cases hwithin
    | stream k =>
        cases hwithin
        obtain ⟨s, hs, htunnel⟩ := habout.body k howned
        exact ⟨s, getElem?_filter_placeOf hs (decide_eq_true htunnel), htunnel⟩

theorem IsAbout.onlyAt_leaves (habout : c.IsAbout number streams) (tunnels : List Tunnel) :
    Tunnel.onlyAt number (c.leaves tunnels) =
      (c.within number streams).leaves (Tunnel.onlyAt number tunnels) := by
  have htask : (c.within number streams).task = c.task := rfl
  unfold leaves
  rw [htask]
  split
  next other handling hold htask =>
    obtain rfl : other = number := habout.task _ htask
    exact Tunnel.onlyAt_modify other tunnels handling.abandon
  · rfl

theorem IsAbout.filter_letsGo (habout : c.IsAbout number streams) :
    (c.letsGo streams).filter (·.tunnel = number) =
      (c.within number streams).letsGo (streams.filter (·.tunnel = number)) := by
  have hwithin : (c.within number streams).body = c.body.map (Body.within number streams) := rfl
  unfold letsGo
  rw [hwithin]
  cases hbody : c.body with
  | none => rfl
  | some body =>
      cases body with
      | empty | text bytes => rfl
      | stream j =>
          obtain ⟨s, hs, htunnel⟩ := habout.body j hbody
          have hplace : (streams.filter (·.tunnel = number))[Stream.placeOn number streams j]? =
              some s := getElem?_filter_placeOf hs (decide_eq_true htunnel)
          simp only [Option.map_some, Body.within]
          rw [modify_eq_set_of_getElem? _ hs, modify_eq_set_of_getElem? _ hplace]
          exact Hub.filter_streams_set hs htunnel htunnel

end Call

namespace Hub

variable {own : String → Option Nat} {number i j : Nat} {h next : Hub} {c c' : Call}

/-- What a user does through a call of the tunnel, one case per action. -/
theorem IsParted.part_applyCall (hparted : h.IsParted own) (hc : h.calls[i]? = some c)
    (hown : own c.name = some number) {action : CallAction}
    (hfor : action.IsFor number h.tunnels) :
    (h.applyCall i c action).2.part own number =
      ((h.part own number).applyCall (h.callPlace own number i) (c.within number h.streams)
        action).2 := by
  have habout := hparted.isAbout hc hown
  have hwithin := habout.within
  have hleaves := habout.onlyAt_leaves h.tunnels
  cases action with
  | request r => exact hparted.part_startRequest hc hown hfor
  | upload parts last =>
      have hupload : (c.within number h.streams).upload = c.upload := rfl
      simp only [applyCall, hupload]
      split
      · exact hparted.part_setCall_self hc hown rfl
      · rfl
  | pull =>
      have hbody : (c.within number h.streams).body.isSome = c.body.isSome := Option.isSome_map
      simp only [applyCall, hbody]
      split
      · exact hparted.part_setCall_self hc hown rfl
      · rfl
  | abort =>
      simp only [applyCall, habout.abortTask_eq, hwithin.abortTask_eq]
      have hset := hparted.part_setCall hc hown h.registry (c.leaves h.tunnels)
        (Stream.changeAt_refl number h.streams) { c with task := none } rfl
      rw [hleaves] at hset
      exact hset
  | release =>
      simp only [applyCall, habout.releaseAll_eq, hwithin.releaseAll_eq]
      have hset := hparted.part_setCall hc hown h.registry (c.leaves h.tunnels)
        (Stream.changeAt_refl number h.streams)
        { c with task := none, readerHold := none, writerHold := none } rfl
      rw [hleaves] at hset
      exact hset
  | drop =>
      simp only [applyCall, habout.dropClient_eq, hwithin.dropClient_eq]
      have hset := hparted.part_setCall hc hown h.registry (c.leaves h.tunnels)
        habout.changeAt_letsGo { c with task := none, body := none } rfl
      rw [hleaves, habout.filter_letsGo] at hset
      exact hset
  | acquire | readSome | readInstruction | available | writeAll | writeInstruction | flush
  | shutdown | close | sweep | keepSweeping | stopSweeping => cases hfor

/-- A call is found by its name in its part. -/
theorem callNumber?_part (h : Hub) {name : String} (hown : own name = some number) :
    (h.part own number).callNumber? name = (h.callNumber? name).map (h.callPlace own number) := by
  unfold callNumber? part
  rw [List.findIdx?_map]
  refine findIdx?_filter _ (fun c hname => ?_) h.calls
  have hthis : c.name = name := of_decide_eq_true hname
  rw [hthis, hown, decide_eq_true rfl]

/-- A call that is new is new in its part. -/
theorem part_withCall (h : Hub) {name : String} (hown : own name = some number) :
    (h.part own number).withCall name =
      ((h.withCall name).2.callPlace own number (h.withCall name).1,
        (h.withCall name).2.part own number) := by
  unfold withCall
  rw [h.callNumber?_part hown]
  cases h.callNumber? name with
  | some i => rfl
  | none =>
      have hplace : placeOf (fun c : Call => own c.name = some number)
          (h.calls ++ [({ name } : Call)]) h.calls.length =
          (callsOf own (some number) h.calls).length := placeOf_length _ _ _
      have hcalls : callsOf own (some number) (h.calls ++ [({ name } : Call)]) =
          callsOf own (some number) h.calls ++ [({ name } : Call)] := by
        simp [callsOf, hown]
      simp only [Option.map_none, part, callPlace, hplace, hcalls, List.map_append, List.length_map]
      rfl

theorem IsParted.part_apply (hparted : h.IsParted own) {name : String} {action : CallAction}
    (hown : own name = some number) (hfor : action.IsFor number h.tunnels) :
    (h.apply (.call name action)).2.part own number =
      ((h.part own number).apply (.call name action)).2 := by
  have hparted' := hparted.of_changesAt (hparted.changesAt_withCall hown)
  obtain ⟨c, hc, hname⟩ := h.exists_withCall name
  have hcall := h.part_withCall hown
  rw [← hname] at hown
  rw [← h.tunnels_withCall name] at hfor
  have hobjection : (c.within number (h.withCall name).2.streams).objection? action =
      c.objection? action := rfl
  unfold apply
  simp only [hcall, hc, getElem?_calls_part hc hown, hobjection]
  split
  · rfl
  · exact hparted'.part_applyCall hc hown hfor

/-! ## How agents go on in a part -/

/-- How the handling of a request goes on. -/
theorem IsParted.part_takeProgress (hparted : h.IsParted own) (hc : h.calls[i]? = some c)
    (hown : own c.name = some number) (hold : Bool) (progress : Handling.Progress)
    (after : Handling.Surroundings) :
    (h.takeProgress i c number hold progress after).part own number =
      (h.part own number).takeProgress (h.callPlace own number i) (c.within number h.streams) number
        hold progress (after.about number) := by
  have hsame := Stream.changeAt_refl number h.streams
  cases progress with
  | goOn handling =>
      have hset := hparted.part_setCall hc hown after.registry (h.tunnels.set number after.tunnel)
        hsame { c with upload := after.upload, task := some (.handle number handling hold) } rfl
      rw [Tunnel.onlyAt_set] at hset
      exact hset
  | answer head =>
      have hset := hparted.part_setCall hc hown after.registry (h.tunnels.set number after.tunnel)
        hsame ({ c with upload := after.upload }.answered head .empty hold) rfl
      rw [Tunnel.onlyAt_set] at hset
      exact hset
  | stream ticket =>
      -- What comes behind all streams comes behind all that are about the tunnel.
      let s := Stream.start h.clock number ticket after.tunnel
      have htunnel : s.tunnel = number := rfl
      have hset := hparted.part_setCall hc hown after.registry (h.tunnels.set number after.tunnel)
        (Stream.changeAt_append h.streams htunnel)
        ({ c with upload := after.upload }.answered .reading (.stream h.streams.length) hold) rfl
      have hplace : Stream.placeOn number (h.streams ++ [s]) h.streams.length =
          (h.part own number).streams.length := placeOf_length _ _ _
      have hstreams : (h.streams ++ [s]).filter (·.tunnel = number) =
          (h.part own number).streams ++ [s] := by
        simp [part, htunnel]
      rw [Tunnel.onlyAt_set, hstreams, within_answered, Body.within, hplace] at hset
      exact hset

theorem IsParted.part_resumeHandling (hparted : h.IsParted own) (hc : h.calls[i]? = some c)
    (hown : own c.name = some number) (handling : Handling) (hold : Bool) :
    (h.resumeHandling i c number handling hold).map (part own number) =
      (h.part own number).resumeHandling (h.callPlace own number i) (c.within number h.streams)
        number handling hold := by
  have hthere : (h.part own number).tunnels[number]? = h.tunnels[number]? := h.getElem?_tunnels_part
  cases ht : h.tunnels[number]? with
  | none =>
      rw [ht] at hthere
      unfold resumeHandling
      rw [ht, hthere]
      rfl
  | some t =>
      rw [ht] at hthere
      have habout : handling.step
          ⟨(h.part own number).registry, t, (c.within number h.streams).upload⟩ =
          (handling.step ⟨h.registry, t, c.upload⟩).map fun p => (p.1, p.2.about number) :=
        handling.step_about ⟨h.registry, t, c.upload⟩
      cases hstep : handling.step ⟨h.registry, t, c.upload⟩ with
      | none =>
          rw [hstep, Option.map_none] at habout
          simp only [resumeHandling, Option.bind_eq_bind, ht, hthere, Option.bind_some, hstep,
            habout, Option.bind_none, Option.map_none]
      | some p =>
          obtain ⟨progress, after⟩ := p
          rw [hstep] at habout
          rw [resumeHandling_eq ht hstep, resumeHandling_eq hthere habout, Option.map_some,
            hparted.part_takeProgress hc hown]

theorem IsParted.part_endBody (hparted : h.IsParted own) (hc : h.calls[i]? = some c)
    (hown : own c.name = some number) (appetite : Appetite) :
    (h.endBody i c appetite).part own number =
      (h.part own number).endBody (h.callPlace own number i) (c.within number h.streams)
        appetite := by
  cases appetite <;> exact hparted.part_setCall_self hc hown rfl

theorem IsParted.part_takeChunk (hparted : h.IsParted own) (hc : h.calls[i]? = some c)
    (hown : own c.name = some number) {streams : List Stream}
    (hstreams : Stream.ChangeAt number h.streams streams) (body : Body) (bytes : List UInt8)
    (appetite : Appetite) :
    ({ h with streams }.takeChunk i c body bytes appetite).part own number =
      { h.part own number with streams := streams.filter (·.tunnel = number) }.takeChunk
        (h.callPlace own number i) (c.within number h.streams) (body.within number streams) bytes
        appetite := by
  cases appetite with
  | everything =>
      exact hparted.part_setCall hc hown h.registry h.tunnels hstreams
        ({ c with body := some body }.tell (.chunk bytes)) rfl
  | oneChunk =>
      exact hparted.part_setCall hc hown h.registry h.tunnels hstreams
        ({ c with body := some body }.finish (.chunk bytes)) rfl

/-- The client finds the same chunk in the part. -/
theorem IsParted.part_resumeReadBody (hparted : h.IsParted own) (hc : h.calls[i]? = some c)
    (hown : own c.name = some number) (appetite : Appetite) :
    (h.resumeReadBody i c appetite).map (part own number) =
      (h.part own number).resumeReadBody (h.callPlace own number i) (c.within number h.streams)
        appetite := by
  have hsame := Stream.changeAt_refl number h.streams
  have hwithin : (c.within number h.streams).body = c.body.map (Body.within number h.streams) := rfl
  unfold resumeReadBody
  rw [hwithin]
  cases hbody : c.body with
  | none => rfl
  | some body =>
      cases body with
      | empty => exact congrArg some (hparted.part_endBody hc hown appetite)
      | text bytes =>
          exact congrArg some (hparted.part_takeChunk hc hown hsame .empty bytes appetite)
      | stream j =>
          obtain ⟨s, hs, htunnel⟩ := (hparted.isAbout hc hown).body j hbody
          have hthere : (h.part own number).streams[Stream.placeOn number h.streams j]? = some s :=
            getElem?_streams_part hs htunnel
          simp only [Option.map_some, Body.within, Option.bind_eq_bind, Option.bind_some, hs,
            hthere]
          cases s.outlet.take with
          | chunk bytes outlet =>
              have htunnel' : ({ s with outlet } : Stream).tunnel = number := htunnel
              have hset : Stream.ChangeAt number h.streams (h.streams.set j { s with outlet }) :=
                Stream.changeAt_set hs htunnel rfl
              have htaken := hparted.part_takeChunk hc hown hset (.stream j) bytes appetite
              rw [filter_streams_set hs htunnel htunnel', Body.within,
                hset.placeOn_eq (List.getElem?_eq_some_iff.mp hs).1.le] at htaken
              exact congrArg some htaken
          | finish => exact congrArg some (hparted.part_endBody hc hown appetite)
          | nothingYet => rfl

/-- A call goes on as it does in its part. -/
theorem IsParted.part_resumeCall (hparted : h.IsParted own) (hc : h.calls[i]? = some c)
    (hown : own c.name = some number) :
    (h.resumeCall i).map (part own number) =
      (h.part own number).resumeCall (h.callPlace own number i) := by
  have hsame : (c.within number h.streams).task = c.task := rfl
  unfold resumeCall
  simp only [Option.bind_eq_bind, hc, getElem?_calls_part hc hown, Option.bind_some, hsame]
  cases htask : c.task with
  | none => rfl
  | some task =>
      have hcase := (hparted.isAbout hc hown).task task htask
      cases task with
      | handle other handling hold =>
          obtain rfl : other = number := hcase
          exact hparted.part_resumeHandling hc hown handling hold
      | readBody appetite => exact hparted.part_resumeReadBody hc hown appetite
      | acquire | readSome | readInstruction | write | flush | shutdown | close | sweep | watch =>
          cases hcase

/-- A stream goes on as it does in its part. -/
theorem IsParted.part_resumeStream (hparted : h.IsParted own) {s : Stream}
    (hs : h.streams[j]? = some s) (htunnel : s.tunnel = number) :
    (h.resumeStream j).map (part own number) =
      (h.part own number).resumeStream (Stream.placeOn number h.streams j) := by
  subst htunnel
  have hthere : (h.part own s.tunnel).streams[Stream.placeOn s.tunnel h.streams j]? = some s :=
    getElem?_streams_part hs rfl
  unfold resumeStream
  simp only [Option.bind_eq_bind, hs, hthere, Option.bind_some, getElem?_tunnels_part]
  cases h.tunnels[s.tunnel]? with
  | none => rfl
  | some t =>
      have habout : s.step (h.part own s.tunnel).clock ⟨(h.part own s.tunnel).registry, t⟩ =
          (s.step h.clock ⟨h.registry, t⟩).map fun p => (p.1.about s.tunnel, p.2) :=
        s.step_about h.clock ⟨h.registry, t⟩
      simp only [Option.bind_some, habout]
      cases hstep : s.step h.clock ⟨h.registry, t⟩ with
      | none => rfl
      | some p =>
          obtain ⟨after, s'⟩ := p
          have hplace : s'.tunnel = s.tunnel := (Stream.step_of_step hstep).place.1
          have hstreams : Stream.ChangeAt s.tunnel h.streams (h.streams.set j s') :=
            Stream.changeAt_set hs rfl hplace
          have hwithin := hparted.within_eq hstreams s.tunnel
          simp only [Option.map_some, Option.bind_some, part, Tunnel.onlyAt_set, hwithin,
            filter_streams_set hs rfl hplace]
          rfl

/-! ## Steps in a part -/

/-- A move with the numbers that calls and streams have in the part. -/
def moveIn (own : String → Option Nat) (number : Nat) (h : Hub) : Move → Move
  | .go (.call i) => .go (.call (h.callPlace own number i))
  | .go (.stream j) => .go (.stream (Stream.placeOn number h.streams j))
  | move => move

/-- A step that is about a tunnel is one of its part. -/
theorem IsParted.part_after? (hparted : h.IsParted own) {move : Move}
    (hfor : h.IsStepFor own number move) :
    (h.after? move).map (part own number) =
      (h.part own number).after? (h.moveIn own number move) := by
  cases hfor with
  | client hown haction => exact congrArg some (hparted.part_apply hown haction)
  | call hc hown => exact hparted.part_resumeCall hc hown
  | stream hs htunnel => exact hparted.part_resumeStream hs htunnel
  | feed arrivals | setManner manner =>
      simp only [moveIn, after?, apply, part, Option.map_some, Tunnel.onlyAt_modify]

end Hub

end LongPollTunnel

import LongPollTunnel.Proofs.Carrying
import LongPollTunnel.Proofs.Listings
import LongPollTunnel.Proofs.Refusing

/-! # Seats of a closed tunnel are passed on

Closing a tunnel drops nobody from its queues. Each caller comes to its turn when the one before it
gives the seat back, finds the tunnel closed and gives the seat back in turn. Main statement: from
the close of a tunnel on every read and every write at it fails as closed, also one that was waiting
already, none takes or hands over anything, and the seats are passed on down the queues. Who has
written and is flushing is not reached by the close: a flush that waits goes on waiting, and a
request that has nothing to write is answered as if the tunnel were open.
-/

namespace LongPollTunnel

/-! ## Giving back -/

/-- The holder has gone and who waited longest has come. -/
def Seat.HandedOn (s after : Seat) : Prop :=
  after.serving = s.waiting.head? ∧ after.waiting = s.waiting.tail

theorem Seat.handedOn_leave {s : Seat} {ticket : Nat} (hserving : s.isServing ticket = true) :
    s.HandedOn (s.leave ticket) := by
  refine ⟨serving_leave_of_isServing hserving, ?_⟩
  rw [leave, if_pos hserving]

theorem Tunnel.seat_leave (t : Tunnel) (role other : Role) (ticket : Nat) :
    (t.leave role ticket).seat other =
      if role = other then (t.seat other).leave ticket else t.seat other := by
  unfold leave
  split
  next heq => rw [heq, seat_setSeat]
  next hne => exact seat_setSeat_of_ne _ _ _ (Ne.symm hne)

/-- The tickets among some claims that are for one seat. -/
def ticketsFor (claims : List Claim) (role : Role) (number : Nat) : List Nat :=
  (claims.filter fun x => x.role = role ∧ x.tunnel = number).map (·.ticket)

namespace Hub

variable {h next start later : Hub} {i j number : Nat} {c : Call} {s : Stream} {t : Tunnel}
  {role : Role} {log : List Record}

theorem exists_leaveEach (ht : h.tunnels[number]? = some t) (claims : List Claim) :
    ∃ after, (h.leaveEach claims).tunnels[number]? = some after ∧ after.isOpen = t.isOpen ∧
      after.queuedReaders = t.queuedReaders ∧
      ∀ role, after.seat role = (ticketsFor claims role number).foldl Seat.leave (t.seat role) := by
  induction claims generalizing h t with
  | nil => exact ⟨t, ht, rfl, rfl, fun _ => rfl⟩
  | cons x rest ih =>
      by_cases heq : x.tunnel = number
      · have hleft : (h.leave x.role ⟨x.tunnel, x.ticket⟩).tunnels[number]? =
            some (t.leave x.role x.ticket) := by
          simp [leave, heq, ht]
        obtain ⟨after, hafter, hopen, hqueued, hseat⟩ := ih hleft
        refine ⟨after, hafter, hopen.trans (Tunnel.isOpen_leave _ _ _),
          hqueued.trans (Tunnel.queuedReaders_leave _ _ _), fun role => ?_⟩
        rw [hseat, Tunnel.seat_leave]
        by_cases hrole : x.role = role
        · simp [ticketsFor, hrole, heq]
        · simp [ticketsFor, hrole]
      · have hkept : (h.leave x.role ⟨x.tunnel, x.ticket⟩).tunnels[number]? = some t := by
          simp [leave, heq, ht]
        obtain ⟨after, hafter, hopen, hqueued, hseat⟩ := ih hkept
        refine ⟨after, hafter, hopen, hqueued, fun role => ?_⟩
        rw [hseat]
        simp [ticketsFor, heq]

/-- A wait that is over lowers the count of the one tunnel whose reader's seat it was for. -/
theorem exists_unqueue? (ht : h.tunnels[number]? = some t) (awaited : Option Claim) :
    ∃ after, (h.unqueue? awaited).tunnels[number]? = some after ∧ after.isOpen = t.isOpen ∧
      after.queuedReaders = t.queuedReaders -
        (if (awaited.map fun x => (x.role, x.tunnel)) = some (.reader, number) then 1 else 0) ∧
      ∀ role, after.seat role = t.seat role := by
  cases awaited with
  | none => exact ⟨t, ht, rfl, rfl, fun _ => rfl⟩
  | some x =>
      by_cases heq : x.tunnel = number
      · refine ⟨t.unqueue x.role, by simp [unqueue?, heq, ht], rfl, ?_,
          fun role => t.seat_unqueue x.role role⟩
        cases hrole : x.role <;> simp [Tunnel.unqueue, Role.queuedReaders, hrole, heq]
      · exact ⟨t, by simp [unqueue?, heq, ht], rfl, by simp [heq], fun _ => rfl⟩

/-- Whatever is given back, every seat is left under the tickets that are for it, and a reader
less counts as queued if the call waited to read. -/
theorem exists_giveBack (ht : h.tunnels[number]? = some t) (claims : List Claim)
    (awaited : Option Claim) :
    ∃ after, (h.giveBack claims awaited).tunnels[number]? = some after ∧
      after.isOpen = t.isOpen ∧
      after.queuedReaders = t.queuedReaders -
        (if (awaited.map fun x => (x.role, x.tunnel)) = some (.reader, number) then 1 else 0) ∧
      ∀ role, after.seat role = (ticketsFor claims role number).foldl Seat.leave (t.seat role) := by
  obtain ⟨middle, hmiddle, hopen, hqueued, hseat⟩ := exists_unqueue? ht awaited
  obtain ⟨after, hafter, hopen', hqueued', hseat'⟩ := exists_leaveEach hmiddle claims
  refine ⟨after, hafter, hopen'.trans hopen, hqueued'.trans hqueued, fun role => ?_⟩
  rw [hseat', hseat]

theorem ticketsFor_holds {hold : Hold} (hhold : c.hold role = some hold) :
    ticketsFor c.holds role hold.tunnel = [hold.ticket] := by
  cases role with
  | reader =>
      simp only [Call.hold] at hhold
      cases c.writerHold <;> simp [ticketsFor, Call.holds, hhold, Hold.claim]
  | writer =>
      simp only [Call.hold] at hhold
      cases c.readerHold <;> simp [ticketsFor, Call.holds, hhold, Hold.claim]

/-- The seat of a tunnel is passed on in a move. -/
def HandsOn (h next : Hub) (role : Role) (number : Nat) : Prop :=
  ∃ t after, h.tunnels[number]? = some t ∧ next.tunnels[number]? = some after ∧
    (t.seat role).HandedOn (after.seat role)

/-- Who acts as holder is served. -/
theorem IsSeated.isServing (hseated : h.IsSeated) {x : Claim} (hx : x ∈ h.held)
    (ht : h.tunnels[x.tunnel]? = some t) : (t.seat x.role).isServing x.ticket = true := by
  obtain ⟨found, hfound, hserving⟩ := hseated.served x hx
  rw [ht] at hfound
  cases hfound
  exact hserving

theorem mem_held_of_call {x : Claim} (hc : h.calls[i]? = some c) (hx : x ∈ c.held) : x ∈ h.held :=
  List.mem_append_left _ (List.mem_flatMap.mpr ⟨c, List.mem_of_getElem? hc, hx⟩)

theorem mem_held_of_hold {hold : Hold} (hc : h.calls[i]? = some c)
    (hhold : c.hold role = some hold) : hold.claim role ∈ h.held := by
  refine mem_held_of_call hc (List.mem_append_right _ ?_)
  cases role with
  | reader =>
      simp only [Call.hold] at hhold
      simp [Call.holds, hhold]
  | writer =>
      simp only [Call.hold] at hhold
      simp [Call.holds, hhold]

/-! ## Who gives a seat back -/

/-- Releasing what it has, an idle call passes its seats on. -/
theorem handsOn_release {name : String} {hold : Hold} (hseated : h.IsSeated)
    (hname : h.callNumber? name = some i) (hc : h.calls[i]? = some c) (hidle : c.task = none)
    (hhold : c.hold role = some hold) :
    h.HandsOn (h.apply (.call name .release)).2 role hold.tunnel := by
  have hheld := mem_held_of_hold hc hhold
  obtain ⟨t, ht, -⟩ := hseated.exists_tunnel (hseated.held_subset _ hheld)
  have hobjection : c.objection? .release = none := by
    simp [Call.objection?, CallAction.isRequest, CallAction.startsTask]
  obtain ⟨after, hafter, -, -, hseat⟩ := exists_giveBack ht c.claims c.awaited?
  rw [apply_call hname hc hobjection]
  refine ⟨t, after, ht, ?_, ?_⟩
  · simp only [applyCall, releaseAll_eq]
    exact hafter
  · have htickets : ticketsFor c.claims role hold.tunnel = [hold.ticket] := by
      rw [Call.claims_of_claim?_none (taskClaim?_of_idle hidle), ticketsFor_holds hhold]
    have hserving := hseated.isServing hheld ht
    rw [hseat]
    change (t.seat role).HandedOn ((ticketsFor c.claims role hold.tunnel).foldl Seat.leave _)
    rw [htickets]
    exact Seat.handedOn_leave hserving

/-- A stream that is through with its response passes the reader's seat on. -/
theorem handsOn_leave (hseated : h.IsSeated) (hs : h.streams[j]? = some s)
    (hphase : s.phase = .flushing .leave) (hflush : s.outlet.flush ≠ .full) :
    ∃ next, h.resume (.stream j) = some next ∧ h.HandsOn next .reader s.tunnel := by
  have hgoesOn : s.phase ≠ .ended := by simp [hphase]
  have hheld := mem_held_of_goesOn (List.mem_of_getElem? hs) hgoesOn
  obtain ⟨t, ht, -⟩ := hseated.exists_tunnel (hseated.held_subset _ hheld)
  have hserving := hseated.isServing hheld ht
  have hleft (s' : Stream) (hticket : s'.ticket = s.ticket) :
      h.HandsOn { h with
        tunnels := h.tunnels.set s.tunnel (t.leave .reader s'.ticket)
        streams := h.streams.set j (s'.leave ⟨h.registry, t⟩).2 } .reader s.tunnel := by
    refine ⟨t, _, ht, getElem?_set_of_getElem? ht, ?_⟩
    rw [hticket]
    exact Seat.handedOn_leave hserving
  cases hpassed : s.outlet.flush with
  | full => exact absurd hpassed hflush
  | passed outlet =>
      refine ⟨_, ?_, hleft { s with outlet } rfl⟩
      simp [resume, resumeStream, hs, ht, Stream.step, hphase, hpassed, Stream.flushed,
        Stream.leave]
  | gone =>
      refine ⟨_, ?_, hleft s rfl⟩
      simp [resume, resumeStream, hs, ht, Stream.step, hphase, hpassed, Stream.undelivered,
        Stream.leave]

/-- A relay at work holds the writer's seat. -/
theorem isServing_of_relaying {ticket : Nat} {rest : Option (List UInt8)} {hold : Bool}
    (hseated : h.IsSeated) (hc : h.calls[i]? = some c)
    (htask : c.task = some (.handle number (.relaying ticket rest) hold))
    (ht : h.tunnels[number]? = some t) : (t.seat .writer).isServing ticket = true := by
  have hheld : (⟨.writer, number, ticket⟩ : Claim) ∈ c.held :=
    List.mem_append_left _ (by simp [htask, Task.isHolding, Handling.isHolding, Call.taskClaim?,
      Task.claim?, Handling.claim, Handling.role, Handling.ticket])
  exact hseated.isServing (mem_held_of_call hc hheld) ht

/-- A relay that fails at a closed tunnel passes the writer's seat on. -/
theorem handsOn_relay {ticket : Nat} {rest : Option (List UInt8)} {hold : Bool}
    {bytes : List UInt8} {parts : List BodyPart} (hseated : h.IsSeated)
    (hc : h.calls[i]? = some c)
    (htask : c.task = some (.handle number (.relaying ticket rest) hold))
    (hnext : c.upload.Next rest bytes parts) (ht : h.tunnels[number]? = some t)
    (hclosed : t.isOpen = false) :
    ∃ next, h.resume (.call i) = some next ∧ h.HandsOn next .writer number := by
  have hserving := isServing_of_relaying hseated hc htask ht
  refine ⟨_, resumeRelay_of_closed hc htask hnext ht hclosed, t, t.leave .writer ticket, ht,
    getElem?_set_of_getElem? ht, ?_⟩
  exact Seat.handedOn_leave hserving

/-- A relay that flushes passes the writer's seat on once the flush is over. -/
theorem handsOn_flush {ticket : Nat} {hold : Bool} {result : Except Failure Unit}
    {flushed : Tunnel} (hseated : h.IsSeated) (hc : h.calls[i]? = some c)
    (htask : c.task = some (.handle number (.relaying ticket none) hold))
    (hparts : c.upload.parts = []) (hended : c.upload.isOpen = false)
    (ht : h.tunnels[number]? = some t) (hclosed : t.isOpen = false)
    (hflush : t.flush? = some (result, flushed)) :
    ∃ next, h.resume (.call i) = some next ∧ h.HandsOn next .writer number ∧
      next.calls[i]? = some (c.answered (Handling.headOfFlush result) .empty hold) := by
  have hserving := isServing_of_relaying hseated hc htask ht
  have hseat := (Tunnel.sameButSink_flush? hflush).seat_eq .writer
  obtain ⟨registry, hresume⟩ := resumeRelay_of_ended hc htask hparts hended ht hclosed
  rw [hflush] at hresume
  refine ⟨_, hresume, ⟨t, flushed.leave .writer ticket, ht, getElem?_set_of_getElem? ht, ?_⟩,
    getElem?_set_of_getElem? hc⟩
  rw [← hseat] at hserving ⊢
  exact Seat.handedOn_leave hserving

/-! ## Who comes to its turn -/

theorem callNumber?_setCall {after : Call} (hc : h.calls[i]? = some c)
    (hname : after.name = c.name) (name : String) :
    (h.setCall i after).callNumber? name = h.callNumber? name := by
  have hnames (calls : List Call) : calls.findIdx? (·.name = name) =
      (calls.map (·.name)).findIdx? (· = name) := by
    rw [List.findIdx?_map]
    rfl
  unfold callNumber? setCall
  rw [hnames, hnames, map_set_of_eq hc hname]

/-- Whose wait for a seat of a closed tunnel is over gets the seat, and then the same failure. -/
theorem acquires_of_closed {name : String} {ticket : Nat} (hname : h.callNumber? name = some i)
    (hc : h.calls[i]? = some c) (htask : c.task = some (.acquire role ⟨number, ticket⟩))
    (ht : h.tunnels[number]? = some t) (hclosed : t.isOpen = false)
    (hserving : (t.seat role).isServing ticket = true) :
    ∃ next after, h.resume (.call i) = some next ∧ next.calls[i]? = some after ∧
      after.events = c.events ++ [.acquired] ∧
      ∀ action : CallAction, action.uses? = some role →
        (next.apply (.call name action)).2.resume (.call i) =
          some (next.setCall i (after.finish (.failed .tunnelClosed))) := by
  let after := (c.setHold role (some ⟨number, ticket⟩)).finish .acquired
  let next := ((h.unqueue role number).leave? role (c.hold role)).setCall i after
  have hresume : h.resume (.call i) = some next := by
    simp [resume, resumeCall, hc, htask, resumeAcquire, ht, hserving, next, after]
  have hafter : after.name = c.name ∧ after.task = none ∧
      after.hold role = some ⟨number, ticket⟩ ∧ after.events = c.events ++ [.acquired] := by
    cases role <;> exact ⟨rfl, rfl, rfl, rfl⟩
  obtain ⟨hsame, hidle, hhold, hevents⟩ := hafter
  have hleave := unqueue_leave?_eq_giveBack h role ⟨number, ticket⟩ (c.hold role)
  have hcalls : ((h.unqueue role number).leave? role (c.hold role)).calls[i]? = some c := by
    rw [hleave, calls_giveBack]
    exact hc
  have hset : next.calls[i]? = some after := getElem?_set_of_getElem? hcalls
  obtain ⟨t', ht', hopen, -⟩ := exists_giveBack ht ((c.hold role).map (·.claim role)).toList
    (some (Hold.claim ⟨number, ticket⟩ role))
  have htunnel : next.tunnels[number]? = some t' := by
    change ((h.unqueue role number).leave? role (c.hold role)).tunnels[number]? = some t'
    rw [hleave]
    exact ht'
  have hnumber : next.callNumber? name = some i := by
    rw [callNumber?_setCall hcalls hsame, hleave, giveBack_eq]
    exact hname
  exact ⟨next, after, hresume, hset, hevents, fun action huses =>
    resume_apply_of_closed hnumber hset hidle huses hhold htunnel (hopen.trans hclosed)⟩

/-- Whose request comes to read from a closed tunnel gets a stream, which fails. -/
theorem streams_of_closed {ticket : Nat} {hold : Bool} (hc : h.calls[i]? = some c)
    (htask : c.task = some (.handle number (.awaitReader ticket) hold))
    (ht : h.tunnels[number]? = some t) (hclosed : t.isOpen = false)
    (hserving : (t.seat .reader).isServing ticket = true) :
    ∃ next last s, h.resume (.call i) = some next ∧
      next.streams[h.streams.length]? = some s ∧ s.tunnel = number ∧ s.ticket = ticket ∧
      next.resume (.stream h.streams.length) = some last ∧
      last.streams[h.streams.length]? = some s.finish := by
  let s := Stream.start h.clock number ticket (t.unqueue .reader)
  have hstep : Handling.step (.awaitReader ticket) ⟨h.registry, t, c.upload⟩ =
      some (.stream ticket, ⟨h.registry, t.unqueue .reader, c.upload⟩) :=
    if_pos hserving
  let next := h.takeProgress i c number hold (.stream ticket)
    ⟨h.registry, t.unqueue .reader, c.upload⟩
  have hresume : h.resume (.call i) = some next := by
    simp only [resume, resumeCall, hc, htask, Option.bind_eq_bind, Option.bind_some]
    exact resumeHandling_eq ht hstep
  have hs : next.streams[h.streams.length]? = some s := List.getElem?_concat_length
  have htunnel : next.tunnels[s.tunnel]? = some (t.unqueue .reader) := getElem?_set_of_getElem? ht
  exact ⟨next, _, s, hresume, hs, rfl, rfl, resumeStream_of_closed hs rfl htunnel hclosed,
    getElem?_set_of_getElem? hs⟩

/-- Whose request comes to write to a closed tunnel fails with its first part. -/
theorem relays_of_closed {ticket : Nat} {hold : Bool} {bytes : List UInt8}
    {parts : List BodyPart} (hc : h.calls[i]? = some c)
    (htask : c.task = some (.handle number (.awaitWriter ticket) hold))
    (hparts : c.upload.parts = .chunk bytes :: parts)
    (ht : h.tunnels[number]? = some t) (hclosed : t.isOpen = false)
    (hserving : (t.seat .writer).isServing ticket = true) :
    ∃ next last, h.resume (.call i) = some next ∧ next.resume (.call i) = some last ∧
      last.calls[i]? = some ({ c with upload := { c.upload with parts } }.answered
        (.ofFailure (.relaying .tunnelClosed)) .empty hold) := by
  have hstep : Handling.step (.awaitWriter ticket) ⟨h.registry, t, c.upload⟩ =
      some (.goOn (.relaying ticket none), ⟨h.registry, t, c.upload⟩) :=
    if_pos hserving
  let relaying : Call := { c with task := some (.handle number (.relaying ticket none) hold) }
  let next := h.takeProgress i c number hold (.goOn (.relaying ticket none))
    ⟨h.registry, t, c.upload⟩
  have hresume : h.resume (.call i) = some next := by
    simp only [resume, resumeCall, hc, htask, Option.bind_eq_bind, Option.bind_some]
    exact resumeHandling_eq ht hstep
  have hrelaying : next.calls[i]? = some relaying := getElem?_set_of_getElem? hc
  have htunnel : next.tunnels[number]? = some t := getElem?_set_of_getElem? ht
  refine ⟨next, _, hresume,
    resumeRelay_of_closed hrelaying rfl (.part hparts) htunnel hclosed, ?_⟩
  refine (getElem?_set_of_getElem? hrelaying).trans ?_
  cases hold <;> rfl

/-! ## From the close on -/

/-- How those who use the closed tunnel with this number go on. -/
structure Refuses (h : Hub) (number : Nat) : Prop where
  /-- What was begun before fails at once, and nothing else happens. -/
  call : ∀ i c task, h.calls[i]? = some c → c.task = some task → task.uses? = some number →
    h.resume (.call i) = some (h.setCall i (c.finish (.failed .tunnelClosed)))
  stream : ∀ j s deadline, h.streams[j]? = some s → s.tunnel = number →
    s.phase = .reading deadline → ∃ next, h.resume (.stream j) = some next ∧
      next.streams[j]? = some s.finish ∧ next.tunnels = h.tunnels
  relay : ∀ i c ticket rest hold bytes parts, h.calls[i]? = some c →
    c.task = some (.handle number (.relaying ticket rest) hold) → c.upload.Next rest bytes parts →
      ∃ next, h.resume (.call i) = some next ∧ h.HandsOn next .writer number ∧
        next.calls[i]? = some ({ c with upload := { c.upload with parts } }.answered
          (.ofFailure (.relaying .tunnelClosed)) .empty hold)
  /-- What is begun later fails at once too. -/
  begin : ∀ i c name action role hold, h.callNumber? name = some i → h.calls[i]? = some c →
    c.task = none → action.uses? = some role → c.hold role = some hold → hold.tunnel = number →
      (h.apply (.call name action)).2.resume (.call i) =
        some (h.setCall i (c.finish (.failed .tunnelClosed)))

theorem refuses_of_closed (hseated : h.IsSeated) (ht : h.tunnels[number]? = some t)
    (hclosed : t.isOpen = false) : h.Refuses number where
  call _ _ _ hc htask huses := resumeCall_of_closed hc htask huses ht hclosed
  stream := by
    rintro j s deadline hs rfl hphase
    exact ⟨_, resumeStream_of_closed hs hphase ht hclosed, getElem?_set_of_getElem? hs, rfl⟩
  relay := by
    intro i c ticket rest hold bytes parts hc htask hnext
    obtain ⟨next, hresume, hhandsOn⟩ := handsOn_relay hseated hc htask hnext ht hclosed
    refine ⟨next, hresume, hhandsOn, ?_⟩
    rw [resumeRelay_of_closed hc htask hnext ht hclosed] at hresume
    cases hresume
    exact getElem?_set_of_getElem? hc
  begin := by
    rintro i c name action role hold hname hc hidle huses hhold rfl
    exact resume_apply_of_closed hname hc hidle huses hhold ht hclosed

/-- How those go on who flush the closed tunnel with this number: nobody wakes or refuses them, and
they wait as long as the sink makes them wait. -/
structure Flushes (h : Hub) (number : Nat) : Prop where
  call : ∀ i c t, h.calls[i]? = some c → c.task = some (.flush number) →
    h.tunnels[number]? = some t →
      h.resume (.call i) = t.flush?.map fun (result, flushed) =>
        (h.setTunnel number flushed).setCall i (c.finish (.ofResult result))
  /-- Also a relay that has nothing left to write. -/
  relay : ∀ i c ticket hold t, h.calls[i]? = some c →
    c.task = some (.handle number (.relaying ticket none) hold) → c.upload.parts = [] →
    c.upload.isOpen = false → h.tunnels[number]? = some t →
      (t.flush? = none → h.resume (.call i) = none) ∧
      ∀ result flushed, t.flush? = some (result, flushed) →
        ∃ next, h.resume (.call i) = some next ∧ h.HandsOn next .writer number ∧
          next.calls[i]? = some (c.answered (Handling.headOfFlush result) .empty hold)

theorem flushes_of_closed (hseated : h.IsSeated) (ht : h.tunnels[number]? = some t)
    (hclosed : t.isOpen = false) : h.Flushes number where
  call _ _ _ hc htask ht' := resumeCall_of_flush hc htask ht'
  relay := by
    intro i c ticket hold t' hc htask hparts hended ht'
    cases ht.symm.trans ht'
    constructor
    · intro hwaits
      obtain ⟨_, hresume⟩ := resumeRelay_of_ended hc htask hparts hended ht hclosed
      rw [hresume, hwaits, Option.map_none]
    · intro result flushed hflush
      exact handsOn_flush hseated hc htask hparts hended ht hclosed hflush

/-- How the seats of the closed tunnel with this number are passed on, and what those get who come
to have them. -/
structure PassesOn (h : Hub) (number : Nat) : Prop where
  release : ∀ i c name role hold, h.callNumber? name = some i → h.calls[i]? = some c →
    c.task = none → c.hold role = some hold → hold.tunnel = number →
      h.HandsOn (h.apply (.call name .release)).2 role number
  leave : ∀ j s, h.streams[j]? = some s → s.tunnel = number → s.phase = .flushing .leave →
    s.outlet.flush ≠ .full → ∃ next, h.resume (.stream j) = some next ∧
      h.HandsOn next .reader number
  acquire : ∀ i c name role ticket t, h.callNumber? name = some i → h.calls[i]? = some c →
    c.task = some (.acquire role ⟨number, ticket⟩) → h.tunnels[number]? = some t →
    (t.seat role).isServing ticket = true →
      ∃ next after, h.resume (.call i) = some next ∧ next.calls[i]? = some after ∧
        after.events = c.events ++ [.acquired] ∧
        ∀ action : CallAction, action.uses? = some role →
          (next.apply (.call name action)).2.resume (.call i) =
            some (next.setCall i (after.finish (.failed .tunnelClosed)))
  read : ∀ i c ticket hold t, h.calls[i]? = some c →
    c.task = some (.handle number (.awaitReader ticket) hold) → h.tunnels[number]? = some t →
    (t.seat .reader).isServing ticket = true →
      ∃ next last s, h.resume (.call i) = some next ∧
        next.streams[h.streams.length]? = some s ∧ s.tunnel = number ∧ s.ticket = ticket ∧
        next.resume (.stream h.streams.length) = some last ∧
        last.streams[h.streams.length]? = some s.finish
  write : ∀ i c ticket hold t bytes parts, h.calls[i]? = some c →
    c.task = some (.handle number (.awaitWriter ticket) hold) →
    c.upload.parts = .chunk bytes :: parts → h.tunnels[number]? = some t →
    (t.seat .writer).isServing ticket = true →
      ∃ next last, h.resume (.call i) = some next ∧ next.resume (.call i) = some last ∧
        last.calls[i]? = some ({ c with upload := { c.upload with parts } }.answered
          (.ofFailure (.relaying .tunnelClosed)) .empty hold)

theorem passesOn_of_closed (hseated : h.IsSeated) (ht : h.tunnels[number]? = some t)
    (hclosed : t.isOpen = false) : h.PassesOn number where
  release := by
    rintro i c name role hold hname hc hidle hhold rfl
    exact handsOn_release hseated hname hc hidle hhold
  leave := by
    rintro j s hs rfl hphase hflush
    exact handsOn_leave hseated hs hphase hflush
  acquire := by
    intro i c name role ticket t' hname hc htask ht' hserving
    cases ht.symm.trans ht'
    exact acquires_of_closed hname hc htask ht hclosed hserving
  read := by
    intro i c ticket hold t' hc htask ht' hserving
    cases ht.symm.trans ht'
    exact streams_of_closed hc htask ht hclosed hserving
  write := by
    intro i c ticket hold t' bytes parts hc htask hparts ht' hserving
    cases ht.symm.trans ht'
    exact relays_of_closed hc htask hparts ht hclosed hserving

/-- A stream that has been waiting since before the close fails once it goes on. -/
theorem stream_of_run_of_closed {deadline : Option Nat} (hrun : Run start log later)
    (hs : start.streams[j]? = some s) (hphase : s.phase = .reading deadline)
    (hother : ∀ r ∈ log, r.move ≠ .go (.stream j)) (hrefuses : later.Refuses s.tunnel) :
    ∃ s' next, later.streams[j]? = some s' ∧ s'.phase = s.phase ∧
      later.resume (.stream j) = some next ∧ next.streams[j]? = some s'.finish := by
  obtain ⟨s', hs', htunnel, -, hsame⟩ := stream_of_run hrun hother hs
  obtain ⟨next, hresume, hfinish, -⟩ :=
    hrefuses.stream j s' deadline hs' htunnel (hsame.trans hphase)
  exact ⟨s', next, hs', hsame, hresume, hfinish⟩

/-- Closing a tunnel takes effect however the close itself ends or waits. From then on, along every
run, every read and every write at it fails as closed, whether it begins later or was waiting
before; nothing is taken out of what it has or will get, nothing is handed to its sink, and each
seat that is given back goes to the one who waited longest, who fails in the same way. The one
exception is who has nothing left to write but is to flush: the close neither wakes it nor refuses
it. -/
theorem refused_once_closed_unless_flushing (hstart : Reaches {} start) (hrun : Run start log later)
    (number : Nat) :
    (∀ name c, (start.withCall name).2.calls[(start.withCall name).1]? = some c → c.task = none →
      number < start.tunnels.length →
        (start.apply (.call name (.close number))).2.isClosedAt number = true) ∧
    (∀ t, start.tunnels[number]? = some t → t.isOpen = false →
      ∃ t', later.tunnels[number]? = some t' ∧ t.Rests t') ∧
    (later.isClosedAt number = true →
      later.Refuses number ∧ later.PassesOn number ∧ later.Flushes number ∧
      (∀ i c task, start.calls[i]? = some c → c.task = some task → task.uses? = some number →
        (∀ r ∈ log, ¬ r.before.turnsTo r.move i) →
          ∃ events, later.calls[i]? = some { c with events } ∧ later.resume (.call i) =
            some (later.setCall i ({ c with events }.finish (.failed .tunnelClosed)))) ∧
      (∀ j s deadline, start.streams[j]? = some s → s.tunnel = number →
        s.phase = .reading deadline → (∀ r ∈ log, r.move ≠ .go (.stream j)) →
          ∃ s' next, later.streams[j]? = some s' ∧ s'.phase = s.phase ∧
            later.resume (.stream j) = some next ∧ next.streams[j]? = some s'.finish) ∧
      (∀ i c ticket rest hold bytes parts, start.calls[i]? = some c →
        c.task = some (.handle number (.relaying ticket rest) hold) →
        c.upload.Next rest bytes parts → (∀ r ∈ log, ¬ r.before.turnsTo r.move i) →
          ∃ events next, later.calls[i]? = some { c with events } ∧
            later.resume (.call i) = some next ∧ later.HandsOn next .writer number) ∧
      (∀ i c, start.calls[i]? = some c → c.task = some (.flush number) →
        (∀ r ∈ log, ¬ r.before.turnsTo r.move i) →
          ∃ events t, later.calls[i]? = some { c with events } ∧
            later.tunnels[number]? = some t ∧
            (later.resume (.call i) = none ↔ t.flush? = none))) := by
  refine ⟨?_, fun t ht hclosed => rests_of_run hrun ht hclosed, ?_⟩
  · intro name c hc hidle hlt
    exact isClosedAt_close hc hidle (List.getElem?_eq_getElem hlt)
  · intro hclosedAt
    obtain ⟨t, ht, hclosed⟩ := isClosedAt_iff.mp hclosedAt
    have hseated : later.IsSeated := isSeated_of_reaches (hstart.trans hrun.reaches)
    have hrefuses := refuses_of_closed hseated ht hclosed
    have hflushes := flushes_of_closed hseated ht hclosed
    refine ⟨hrefuses, passesOn_of_closed hseated ht hclosed, hflushes, ?_, ?_, ?_, ?_⟩
    · intro i c task hc htask huses hother
      obtain ⟨events, hlater⟩ := call_of_run hrun hother hc
      exact ⟨events, hlater, hrefuses.call i _ task hlater htask huses⟩
    · rintro j s deadline hs rfl hphase hother
      exact stream_of_run_of_closed hrun hs hphase hother hrefuses
    · intro i c ticket rest hold bytes parts hc htask hnext hother
      obtain ⟨events, hlater⟩ := call_of_run hrun hother hc
      obtain ⟨next, hresume, hhandsOn, -⟩ :=
        hrefuses.relay i _ ticket rest hold bytes parts hlater htask hnext
      exact ⟨events, next, hlater, hresume, hhandsOn⟩
    · intro i c hc htask hother
      obtain ⟨events, hlater⟩ := call_of_run hrun hother hc
      refine ⟨events, t, hlater, ht, ?_⟩
      rw [hflushes.call i _ t hlater htask ht, Option.map_eq_none_iff]

/-- One call waits for instructions and one for the sink, and a third is queued behind the first.
The fourth, which is to close the tunnel, has done nothing of account yet. -/
def closedWhileWaiting : List Move :=
  [.act (.open (Identity.random 0) (some 5) { blockAt := some 0 } []),
    .act (.call "reading" (.acquire 0 .reader)), .go (.call 0), .act (.call "reading" .readSome),
    .act (.call "writing" (.acquire 0 .writer)), .go (.call 1),
    .act (.call "writing" (.writeAll [0x31])),
    .act (.call "queued" (.acquire 0 .reader)), .act (.call "closing" .stopSweeping)]

/-- Neither can go on before the close, and both fail after it. -/
theorem refused_once_closed_while_waiting :
    (({} : Hub).replay closedWhileWaiting).1.length = closedWhileWaiting.length ∧
    (({} : Hub).replay closedWhileWaiting).2.resume (.call 0) = none ∧
    (({} : Hub).replay closedWhileWaiting).2.resume (.call 1) = none ∧
    ∃ closed,
      (({} : Hub).replay closedWhileWaiting).2.after? (.act (.call "closing" (.close 0))) =
        some closed ∧
      closed.isClosedAt 0 = true ∧ closed.Refuses 0 ∧ closed.PassesOn 0 ∧
      (∃ reading : Call, reading.name = "reading" ∧ closed.resume (.call 0) =
        some (closed.setCall 0 (reading.finish (.failed .tunnelClosed)))) ∧
      (∃ writing : Call, writing.name = "writing" ∧ closed.resume (.call 1) =
        some (closed.setCall 1 (writing.finish (.failed .tunnelClosed)))) := by
  let before := (({} : Hub).replay closedWhileWaiting).2
  let closing : Move := .act (.call "closing" (.close 0))
  have hbefore : Reaches {} before := (run_replay {} closedWhileWaiting).reaches
  have hclose : before.after? closing =
      some (before.apply (.call "closing" (.close 0))).2 := rfl
  have hrun := (Run.nil : Run before [] before).snoc hclose
  obtain ⟨hcloses, -, hclosed⟩ := refused_once_closed_unless_flushing hbefore hrun 0
  have hdown := hcloses "closing" _ rfl (by decide) (by decide)
  obtain ⟨hrefuses, hpasses, -, hcalls, -, -, -⟩ := hclosed hdown
  obtain ⟨_, -, hread⟩ := hcalls 0 _ _ rfl rfl rfl (by simp [turnsTo]; decide)
  obtain ⟨_, -, hwritten⟩ := hcalls 1 _ _ rfl rfl rfl (by simp [turnsTo]; decide)
  exact ⟨by decide, by decide, by decide, _, hclose, hdown, hrefuses, hpasses,
    ⟨_, rfl, hread⟩, ⟨_, rfl, hwritten⟩⟩

/-- One call has written an instruction to a sink that lets no flush end when another closes the
tunnel. -/
def closedWhileFlushing : List Move :=
  [.act (.open (Identity.random 0) (some 5) { flushBlockAt := some 0 } []),
    .act (.call "writing" (.acquire 0 .writer)), .go (.call 0),
    .act (.call "writing" (.writeInstruction ⟨"nop", []⟩)), .go (.call 0),
    .act (.call "closing" (.close 0))]

/-- A request to write nothing is queued behind a call that gives the seat back once the tunnel is
closed. -/
def closedBeforeFlushing : List Move :=
  let write : Request :=
    { query := Operation.writePrefix ++ (Identity.random 0).text
      connection := .error .notCreated
      upload := { parts := [] } }
  [.act (.open (Identity.random 0) none {} []), .act (.put (Identity.random 0).text 0),
    .act (.call "holding" (.acquire 0 .writer)), .go (.call 0),
    .act (.call "writing" (.request write)), .act (.call "closing" (.close 0)),
    .act (.call "holding" .release), .go (.call 1), .go (.call 1)]

/-- The call that writes the instruction waits on, for the close does not wake it, and the request
is answered as if the tunnel were open. -/
theorem not_refused_when_flushing :
    (({} : Hub).replay closedWhileFlushing).1.length = closedWhileFlushing.length ∧
    (({} : Hub).replay closedWhileFlushing).2.isClosedAt 0 = true ∧
    ((({} : Hub).replay closedWhileFlushing).2.calls[0]?.map fun c => (c.task, c.events)) =
      some (some (.flush 0), [.acquired]) ∧
    (({} : Hub).replay closedWhileFlushing).2.resume (.call 0) = none ∧
    (({} : Hub).replay closedBeforeFlushing).1.length = closedBeforeFlushing.length ∧
    (({} : Hub).replay closedBeforeFlushing).2.isClosedAt 0 = true ∧
    ((({} : Hub).replay closedBeforeFlushing).2.calls[1]?.map (·.events)) =
      some [.head .written] := by
  decide

end Hub

end LongPollTunnel

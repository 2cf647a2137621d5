import LongPollTunnel.Proofs.TakingDown
import LongPollTunnel.Proofs.Turns

/-! # What a closed tunnel refuses

A tunnel that was closed gives nothing more and takes nothing more, whatever is buffered in it,
reported by it or handed to it. Whoever reads or writes at it fails at once, also if the reading or
the writing had begun before and was waiting; only what has been written is still flushed, and that
waits for the sink alone. Main statements: how calls, relays and streams go on that use a closed
tunnel, and that nothing of it changes but what its source brings.
-/

namespace LongPollTunnel

namespace Tunnel

variable {may : Rights} {t after : Tunnel}

/-- The flag wins over whatever is buffered or held back, and over the deadline. -/
theorem readSome_of_closed (hclosed : t.isOpen = false) (expired : Bool) :
    t.readSome expired = (.failed .tunnelClosed, t) := by
  have hread : t.reader.readSome (!t.isOpen) expired = (.failed .tunnelClosed, t.reader) := by
    simp [hclosed, Reader.readSome, Reader.await]
  rw [readSome, hread]

theorem readInstruction_of_closed (hclosed : t.isOpen = false) :
    t.readInstruction = (.failed .tunnelClosed, t) := by
  have hread : t.reader.readInstruction (!t.isOpen) = (.failed .tunnelClosed, t.reader) := by
    simp [hclosed, Reader.readInstruction, Reader.await]
  rw [readInstruction, hread]

/-- Not even an empty write succeeds. -/
theorem writeAll_of_closed (hclosed : t.isOpen = false) (bytes : List UInt8) :
    t.writeAll bytes = (.failed .tunnelClosed, t) := by
  have hwrite : t.sink.put (!t.isOpen) bytes = (.failed .tunnelClosed, t.sink) := by
    simp [hclosed, Sink.put]
  rw [writeAll, hwrite]

/-- A look ahead answers yes, for the next read does not wait. -/
theorem available_of_closed (hclosed : t.isOpen = false) : t.available = (true, t) := by
  have hlook : t.reader.available (!t.isOpen) = (true, t.reader) := by
    simp [hclosed, Reader.available]
  rw [available, hlook]

theorem close_of_closed (hclosed : t.isOpen = false) : t.close = (.done (.ok ()), t) := by
  simp [close, hclosed]

/-- A closed tunnel at a later time: its source has brought more, but nothing was taken from what
it brought, buffered or held back to report, and its sink has taken nothing. -/
structure Rests (t later : Tunnel) : Prop where
  isOpen : later.isOpen = false
  reader : ∃ arrived, later.reader = { t.reader with source := t.reader.source ++ arrived }
  accepted : later.sink.accepted = t.sink.accepted

/-- Only what the source brings is added: a closed tunnel is not read from. -/
theorem Becomes.reader_of_closed (hbecomes : Becomes may t after) (hclosed : t.isOpen = false) :
    ∃ arrived, after.reader = { t.reader with source := t.reader.source ++ arrived } := by
  induction hbecomes with
  | refl => exact ⟨[], by rw [List.append_nil]⟩
  | draw _ role _ ih =>
      rw [reader_draw]
      exact ih
  | leave role ticket _ ih =>
      rw [reader_leave]
      exact ih
  | shutAndDraw _ _ ih =>
      rw [reader_draw]
      exact ih
  | available hmiddle ih =>
      rw [available_of_closed (hmiddle.isOpen_eq_false hclosed)]
      exact ih
  | flush _ hflush ih =>
      rw [(sameButSink_flush? hflush).reader_eq]
      exact ih
  | shutdown _ hshutdown ih =>
      rw [(sameButSink_shutdown? hshutdown).reader_eq]
      exact ih
  | readSome _ expired hmiddle ih =>
      rw [readSome_of_closed (hmiddle.isOpen_eq_false hclosed)]
      exact ih
  | readInstruction _ hmiddle ih =>
      rw [readInstruction_of_closed (hmiddle.isOpen_eq_false hclosed)]
      exact ih
  | feed _ arrivals _ ih =>
      obtain ⟨arrived, heq⟩ := ih
      refine ⟨arrived ++ arrivals.filter Arrival.isReal, ?_⟩
      simp only [heq, Reader.feed, List.append_assoc]
  | _ => assumption

/-- Whatever is done to a closed tunnel, it rests. -/
theorem Becomes.rests (hbecomes : Becomes may t after) (hclosed : t.isOpen = false) :
    t.Rests after :=
  ⟨hbecomes.isOpen_eq_false hclosed, hbecomes.reader_of_closed hclosed,
    hbecomes.accepted_eq_of_closed hclosed⟩

theorem rests_refl (hclosed : t.isOpen = false) : t.Rests t :=
  ⟨hclosed, ⟨[], by rw [List.append_nil]⟩, rfl⟩

theorem Rests.trans {middle later : Tunnel} (hfirst : t.Rests middle)
    (hsecond : middle.Rests later) : t.Rests later := by
  obtain ⟨first, hmiddle⟩ := hfirst.reader
  obtain ⟨second, hlater⟩ := hsecond.reader
  refine ⟨hsecond.isOpen, ⟨first ++ second, ?_⟩, hsecond.accepted.trans hfirst.accepted⟩
  rw [hlater, hmiddle, ← List.append_assoc]

end Tunnel

namespace Handling

/-- What a request whose body has ended is answered once the sink is flushed. -/
def headOfFlush : Except Failure Unit → Head
  | .ok _ => .written
  | .error failure => .ofFailure (.relaying failure)

/-- A relay that has no part left to write is not refused: it flushes the sink of the closed tunnel
too, gives the seat back and is answered how the flush ended. -/
theorem step_of_ended {r : Registry} {t : Tunnel} {u : Upload} (ticket : Nat)
    (hparts : u.parts = []) (hended : u.isOpen = false) (hclosed : t.isOpen = false) :
    ∃ registry : Except Failure Unit → Registry,
      step (.relaying ticket none) ⟨r, t, u⟩ = t.flush?.map fun (result, flushed) =>
        (.answer (headOfFlush result), ⟨registry result, flushed.leave .writer ticket, u⟩) := by
  refine ⟨fun result => result.casesOn (fun _ => r.erase t.identity.text) fun _ => r, ?_⟩
  simp only [step, relayNext, hparts, hended, finishRelay, Bool.false_eq_true, if_false]
  cases hflush : t.flush? with
  | none => rfl
  | some flushed =>
      obtain ⟨result, after⟩ := flushed
      cases result with
      | ok _ => rfl
      | error failure =>
          have hsame := Tunnel.sameButSink_flush? hflush
          have hleft : (after.leave .writer ticket).isOpen = false := by
            rw [Tunnel.isOpen_leave, hsame.isOpen_eq, hclosed]
          simp only [failRelay_eq, Tunnel.close_of_closed hleft, afterClosing, hsame.identity_eq,
            Option.map_some, headOfFlush]

end Handling

/-- The number of the tunnel that a task reads from or writes to. -/
def Task.uses? : Task → Option Nat
  | .readSome number _ | .readInstruction number | .write number _ _ => some number
  | .acquire _ _ | .flush _ | .shutdown _ | .close _ | .sweep _ | .watch _ | .handle _ _ _
  | .readBody _ => none

/-- The role in which an action reads or writes. -/
def CallAction.uses? : CallAction → Option Role
  | .readSome | .readInstruction => some .reader
  | .writeAll _ | .writeInstruction _ => some .writer
  | .acquire _ _ | .available | .flush | .shutdown | .close _ | .sweep _ | .keepSweeping _ _
  | .stopSweeping | .request _ | .upload _ _ | .pull | .abort | .release | .drop => none

namespace Hub

variable {h next start later : Hub} {i j number : Nat} {c : Call} {s : Stream} {t : Tunnel}
  {log : List Record}

theorem setTunnel_self (ht : h.tunnels[number]? = some t) : h.setTunnel number t = h := by
  obtain ⟨_, rfl⟩ := List.getElem?_eq_some_iff.mp ht
  unfold setTunnel
  rw [List.set_getElem_self]

theorem setCall_setCall (h : Hub) (i : Nat) (c after : Call) :
    (h.setCall i c).setCall i after = h.setCall i after := by
  simp [setCall]

/-! ## Going on at a closed tunnel -/

/-- Whoever reads or writes fails, and nothing else happens. -/
theorem resumeCall_of_closed {task : Task} (hc : h.calls[i]? = some c)
    (htask : c.task = some task) (huses : task.uses? = some number)
    (ht : h.tunnels[number]? = some t) (hclosed : t.isOpen = false) :
    h.resume (.call i) = some (h.setCall i (c.finish (.failed .tunnelClosed))) := by
  simp only [resume, resumeCall, hc, htask, Option.bind_eq_bind, Option.bind_some]
  cases task with
  | readSome number' deadline =>
      cases huses
      simp [resumeReadSome, ht, Tunnel.readSome_of_closed hclosed, setTunnel_self ht]
  | readInstruction number' =>
      cases huses
      simp [resumeReadInstruction, ht, Tunnel.readInstruction_of_closed hclosed,
        setTunnel_self ht]
  | write number' rest thenFlush =>
      cases huses
      simp [resumeWrite, ht, Tunnel.writeAll_of_closed hclosed, setTunnel_self ht]
  | _ => cases huses

/-- A stream that reads ends its response in good order. -/
theorem resumeStream_of_closed {deadline : Option Nat} (hs : h.streams[j]? = some s)
    (hphase : s.phase = .reading deadline) (ht : h.tunnels[s.tunnel]? = some t)
    (hclosed : t.isOpen = false) :
    h.resume (.stream j) = some { h with
      registry := h.registry.erase t.identity.text
      streams := h.streams.set j s.finish } := by
  have hfail : s.fail .tunnelClosed ⟨h.registry, t⟩ =
      (⟨h.registry.erase t.identity.text, t⟩, s.finish) := by
    rw [Stream.fail_eq]
    simp [Tunnel.close_of_closed hclosed, Stream.afterClosing, Stream.afterTeardown,
      Failure.isClosed, Failure.tunnelClosed]
  have htunnels : h.tunnels.set s.tunnel t = h.tunnels := congrArg Hub.tunnels (setTunnel_self ht)
  simp only [resume, resumeStream, hs, ht, Stream.step, hphase,
    Tunnel.readSome_of_closed hclosed, hfail, Option.bind_eq_bind, Option.bind_some, htunnels]

/-- A relay that has a part to write is answered with the failure and gives the seat back. -/
theorem resumeRelay_of_closed {ticket : Nat} {rest : Option (List UInt8)} {hold : Bool}
    {bytes : List UInt8} {parts : List BodyPart} (hc : h.calls[i]? = some c)
    (htask : c.task = some (.handle number (.relaying ticket rest) hold))
    (hnext : c.upload.Next rest bytes parts) (ht : h.tunnels[number]? = some t)
    (hclosed : t.isOpen = false) :
    h.resume (.call i) = some ({ h with
      registry := h.registry.erase t.identity.text
      tunnels := h.tunnels.set number (t.leave .writer ticket) }.setCall i
        ({ c with upload := { c.upload with parts } }.answered
          (.ofFailure (.relaying .tunnelClosed)) .empty hold)) := by
  have hfails : Handling.Fails t c.upload rest (.relaying .tunnelClosed) t
      { c.upload with parts } :=
    .write hnext (Tunnel.writeAll_of_closed hclosed bytes)
  have hleft : (t.leave .writer ticket).isOpen = false := by rw [Tunnel.isOpen_leave, hclosed]
  have hstep : Handling.step (.relaying ticket rest) ⟨h.registry, t, c.upload⟩ =
      some (.answer (.ofFailure (.relaying .tunnelClosed)),
        ⟨h.registry.erase t.identity.text, t.leave .writer ticket, { c.upload with parts }⟩) := by
    rw [Handling.step_of_fails ticket hfails, Handling.failRelay_eq,
      Tunnel.close_of_closed hleft]
    rfl
  simp only [resume, resumeCall, hc, htask, Option.bind_eq_bind, Option.bind_some]
  rw [resumeHandling_eq ht hstep]
  rfl

/-- Whoever flushes is told how the flush ends, and waits as long as it has to: that the tunnel is
closed makes no difference. -/
theorem resumeCall_of_flush (hc : h.calls[i]? = some c) (htask : c.task = some (.flush number))
    (ht : h.tunnels[number]? = some t) :
    h.resume (.call i) = t.flush?.map fun (result, flushed) =>
      (h.setTunnel number flushed).setCall i (c.finish (.ofResult result)) := by
  simp only [resume, resumeCall, hc, htask, resumeFlush, ht, Option.bind_eq_bind, Option.bind_some]
  cases t.flush? <;> rfl

/-- A relay whose body has ended goes on when the sink is flushed. -/
theorem resumeRelay_of_ended {ticket : Nat} {hold : Bool} (hc : h.calls[i]? = some c)
    (htask : c.task = some (.handle number (.relaying ticket none) hold))
    (hparts : c.upload.parts = []) (hended : c.upload.isOpen = false)
    (ht : h.tunnels[number]? = some t) (hclosed : t.isOpen = false) :
    ∃ registry : Except Failure Unit → Registry,
      h.resume (.call i) = t.flush?.map fun (result, flushed) =>
        { h with
          registry := registry result
          tunnels := h.tunnels.set number (flushed.leave .writer ticket) }.setCall i
            (c.answered (Handling.headOfFlush result) .empty hold) := by
  obtain ⟨registry, hstep⟩ := Handling.step_of_ended (r := h.registry) ticket hparts hended hclosed
  refine ⟨registry, ?_⟩
  simp only [resume, resumeCall, hc, htask, Option.bind_eq_bind, Option.bind_some]
  cases hflush : t.flush? with
  | none =>
      rw [hflush] at hstep
      simp [resumeHandling, ht, hstep]
  | some flushed =>
      rw [hflush] at hstep
      rw [resumeHandling_eq ht hstep]
      rfl

/-! ## Beginning at a closed tunnel -/

theorem apply_call {name : String} {action : CallAction} (hname : h.callNumber? name = some i)
    (hc : h.calls[i]? = some c) (hobjection : c.objection? action = none) :
    h.apply (.call name action) = h.applyCall i c action := by
  simp [apply, withCall, hname, hc, hobjection]

theorem objection?_of_idle {action : CallAction} (hidle : c.task = none)
    (hrequest : action.isRequest = false) : c.objection? action = none := by
  simp [Call.objection?, Call.isBusy, hidle, hrequest]

/-- To read or to write with a seat that is held begins a task. -/
theorem apply_uses {name : String} {action : CallAction} {role : Role} {hold : Hold}
    (hname : h.callNumber? name = some i) (hc : h.calls[i]? = some c) (hidle : c.task = none)
    (huses : action.uses? = some role) (hhold : c.hold role = some hold)
    (ht : h.tunnels[hold.tunnel]? = some t) :
    ∃ task : Task, task.uses? = some hold.tunnel ∧
      (h.apply (.call name action)).2 = h.setCall i { c with task := some task } := by
  have hrequest : action.isRequest = false := by
    cases action <;> first | rfl | cases huses
  rw [apply_call hname hc (objection?_of_idle hidle hrequest)]
  cases action with
  | readSome =>
      cases huses
      refine ⟨.readSome hold.tunnel (Stream.deadline h.clock t), rfl, ?_⟩
      simp only [Call.hold] at hhold
      simp [applyCall, withHeld, hhold, ht, assign]
  | readInstruction =>
      cases huses
      refine ⟨.readInstruction hold.tunnel, rfl, ?_⟩
      simp only [Call.hold] at hhold
      simp [applyCall, withHeld, hhold, ht, assign]
  | writeAll bytes =>
      cases huses
      refine ⟨.write hold.tunnel bytes false, rfl, ?_⟩
      simp only [Call.hold] at hhold
      simp [applyCall, withHeld, hhold, ht, assign]
  | writeInstruction instruction =>
      cases huses
      refine ⟨.write hold.tunnel instruction.encode true, rfl, ?_⟩
      simp only [Call.hold] at hhold
      simp [applyCall, withHeld, hhold, ht, assign]
  | _ => cases huses

/-- What begins at a closed tunnel fails at once, and nothing else happens. -/
theorem resume_apply_of_closed {name : String} {action : CallAction} {role : Role} {hold : Hold}
    (hname : h.callNumber? name = some i) (hc : h.calls[i]? = some c) (hidle : c.task = none)
    (huses : action.uses? = some role) (hhold : c.hold role = some hold)
    (ht : h.tunnels[hold.tunnel]? = some t) (hclosed : t.isOpen = false) :
    (h.apply (.call name action)).2.resume (.call i) =
      some (h.setCall i (c.finish (.failed .tunnelClosed))) := by
  obtain ⟨task, htask, hassigned⟩ := apply_uses hname hc hidle huses hhold ht
  have hbusy : (h.setCall i { c with task := some task }).calls[i]? =
      some { c with task := some task } := getElem?_set_of_getElem? hc
  rw [hassigned, resumeCall_of_closed hbusy rfl htask ht hclosed, setCall_setCall]
  rfl

/-! ## From the close on -/

/-- However a close stands, the tunnel is closed. -/
theorem isClosedAt_close {name : String}
    (hc : (h.withCall name).2.calls[(h.withCall name).1]? = some c) (hidle : c.task = none)
    (ht : h.tunnels[number]? = some t) :
    (h.apply (.call name (.close number))).2.isClosedAt number = true := by
  have hset : ((h.withCall name).2.tunnels.set number t.close.2)[number]? = some t.close.2 := by
    rw [tunnels_withCall]
    exact getElem?_set_of_getElem? ht
  have hobjection : c.objection? (.close number) = none := objection?_of_idle hidle rfl
  rw [isClosedAt_iff]
  refine ⟨t.close.2, ?_, t.isOpen_close⟩
  simp only [apply, hc, hobjection, applyCall, startClose, tunnels_withCall, ht]
  cases hclose : t.close with
  | mk closing after =>
      rw [hclose] at hset
      cases closing <;> exact hset

/-- The run lemma. -/
theorem rests_of_run (hrun : Run start log later) (ht : start.tunnels[number]? = some t)
    (hclosed : t.isOpen = false) :
    ∃ t', later.tunnels[number]? = some t' ∧ t.Rests t' := by
  induction hrun with
  | nil => exact ⟨t, ht, Tunnel.rests_refl hclosed⟩
  | snoc _ hmove ih =>
      obtain ⟨middle, hmiddle, hrests⟩ := ih
      obtain ⟨t', ht', hbecomes⟩ := becomes_after? hmove hmiddle
      exact ⟨t', ht', hrests.trans (hbecomes.rests hrests.isOpen)⟩

end Hub

end LongPollTunnel

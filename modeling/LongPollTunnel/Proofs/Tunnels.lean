import LongPollTunnel.Tunnel.Basic

/-! # What the operations of a tunnel leave alone

Each operation of a tunnel touches one part of it: drawing and leaving a seat, the reader
its own state, the writer the sink. A close is final; the way it goes is told once, for
all that close a tunnel.
-/

namespace LongPollTunnel.Tunnel

variable (t : Tunnel) (role : Role) (seat : Seat) (ticket : Nat)

@[simp] theorem seat_setSeat : (t.setSeat role seat).seat role = seat := by
  cases role <;> rfl

/-- The seat of the other role stays. -/
theorem seat_setSeat_of_ne {other : Role} (hne : other ≠ role) :
    (t.setSeat role seat).seat other = t.seat other := by
  cases role <;> cases other <;> first | rfl | exact absurd rfl hne

@[simp] theorem identity_setSeat : (t.setSeat role seat).identity = t.identity := by
  cases role <;> rfl

@[simp] theorem reader_setSeat : (t.setSeat role seat).reader = t.reader := by
  cases role <;> rfl

@[simp] theorem sink_setSeat : (t.setSeat role seat).sink = t.sink := by
  cases role <;> rfl

@[simp] theorem isOpen_setSeat : (t.setSeat role seat).isOpen = t.isOpen := by
  cases role <;> rfl

/-- The ticket drawn is the next one of the seat. -/
theorem fst_draw : (t.draw role).1 = (t.seat role).next :=
  Seat.fst_draw _

/-- Drawing changes one seat, and how many readers count as queued. -/
theorem snd_draw : (t.draw role).2 =
    { t.setSeat role (t.seat role).draw.2 with
      queuedReaders := t.queuedReaders + role.queuedReaders } := rfl

/-- That readers are counted does not show in the seats. -/
theorem seat_snd_draw (other : Role) :
    (t.draw role).2.seat other = (t.setSeat role (t.seat role).draw.2).seat other := by
  cases other <;> rfl

@[simp] theorem queuedReaders_draw :
    (t.draw role).2.queuedReaders = t.queuedReaders + role.queuedReaders := rfl

@[simp] theorem identity_draw : (t.draw role).2.identity = t.identity := by
  simp [snd_draw]

@[simp] theorem reader_draw : (t.draw role).2.reader = t.reader := by
  simp [snd_draw]

@[simp] theorem sink_draw : (t.draw role).2.sink = t.sink := by
  simp [snd_draw]

@[simp] theorem isOpen_draw : (t.draw role).2.isOpen = t.isOpen := by
  simp [snd_draw]

/-- Whoever ceases to count as queued keeps its place in the queue until it gives that up. -/
@[simp] theorem seat_unqueue (other : Role) : (t.unqueue role).seat other = t.seat other := by
  cases other <;> rfl

@[simp] theorem queuedReaders_setSeat : (t.setSeat role seat).queuedReaders = t.queuedReaders := by
  cases role <;> rfl

/-- Giving a ticket back says nothing of who counts as queued: the wait was over before, or is taken
off the count on its own. -/
@[simp] theorem queuedReaders_leave : (t.leave role ticket).queuedReaders = t.queuedReaders := by
  simp [leave]

@[simp] theorem identity_leave : (t.leave role ticket).identity = t.identity := by
  simp [leave]

@[simp] theorem reader_leave : (t.leave role ticket).reader = t.reader := by
  simp [leave]

@[simp] theorem sink_leave : (t.leave role ticket).sink = t.sink := by
  simp [leave]

@[simp] theorem isOpen_leave : (t.leave role ticket).isOpen = t.isOpen := by
  simp [leave]

/-! ## Using the reader and the sink -/

variable {t}

/-- The same tunnel, up to the state of its reader. -/
def SameButReader (t after : Tunnel) : Prop :=
  after = { t with reader := after.reader }

/-- The same tunnel, up to the state of its sink. -/
def SameButSink (t after : Tunnel) : Prop :=
  after = { t with sink := after.sink }

/-- Reading is between the reader and its source. -/
theorem sameButReader_of_readSome {expired : Bool} {outcome : Outcome Failure (List UInt8)}
    {after : Tunnel} (hread : t.readSome expired = (outcome, after)) : t.SameButReader after := by
  cases hread
  rfl

theorem sameButReader_readInstruction : t.SameButReader t.readInstruction.2 := rfl

/-- A look ahead may take in something, and changes nothing else. -/
theorem sameButReader_available : t.SameButReader t.available.2 := rfl

theorem sameButSink_refl (t : Tunnel) : t.SameButSink t := rfl

/-- Writing is between the sink and its writer, however the write stands. -/
theorem sameButSink_of_writeAll {bytes : List UInt8} {writing : Writing} {after : Tunnel}
    (hwrite : t.writeAll bytes = (writing, after)) : t.SameButSink after := by
  cases hwrite
  rfl

/-- A flush that is over has changed nothing but the sink. -/
theorem sameButSink_flush? {result : Except Failure Unit} {after : Tunnel}
    (hflush : t.flush? = some (result, after)) : t.SameButSink after := by
  obtain ⟨⟨_, sink⟩, _, heq⟩ := Option.map_eq_some_iff.mp hflush
  cases heq
  rfl

theorem sameButSink_shutdown? {result : Except Failure Unit} {after : Tunnel}
    (hshutdown : t.shutdown? = some (result, after)) : t.SameButSink after := by
  obtain ⟨⟨_, sink⟩, _, heq⟩ := Option.map_eq_some_iff.mp hshutdown
  cases heq
  rfl

namespace SameButReader

variable {after : Tunnel} (hsame : t.SameButReader after)
include hsame

theorem seat_eq (role : Role) : after.seat role = t.seat role := by
  rw [hsame]
  cases role <;> rfl

theorem isOpen_eq : after.isOpen = t.isOpen := by
  rw [hsame]

theorem identity_eq : after.identity = t.identity := by
  rw [hsame]

end SameButReader

namespace SameButSink

variable {after : Tunnel} (hsame : t.SameButSink after)
include hsame

theorem seat_eq (role : Role) : after.seat role = t.seat role := by
  rw [hsame]
  cases role <;> rfl

theorem reader_eq : after.reader = t.reader := by
  rw [hsame]

theorem isOpen_eq : after.isOpen = t.isOpen := by
  rw [hsame]

theorem identity_eq : after.identity = t.identity := by
  rw [hsame]

theorem queuedReaders_eq : after.queuedReaders = t.queuedReaders := by
  rw [hsame]

end SameButSink

/-! ## Closing -/

/-- The tunnel with its flag cleared, as a close leaves it at first. -/
def shut (t : Tunnel) : Tunnel :=
  { t with isOpen := false }

@[simp] theorem seat_shut (role : Role) : t.shut.seat role = t.seat role := by
  cases role <;> rfl

/-- A close is over when the sink is shut down, and gives the writer's seat back then. -/
theorem resumeClose_done {result : Except Failure Unit} {after : Tunnel}
    (hclose : t.resumeClose ticket = (.done result, after)) :
    ∃ middle, t.shutdown? = some (result, middle) ∧ after = middle.leave .writer ticket := by
  unfold resumeClose at hclose
  split at hclose
  next found middle hshutdown =>
    cases hclose
    exact ⟨middle, hshutdown, rfl⟩
  · cases hclose

/-- A close that waits keeps its ticket and has changed nothing. -/
theorem resumeClose_waiting {place : Nat} {after : Tunnel}
    (hclose : t.resumeClose ticket = (.waiting place, after)) :
    place = ticket ∧ after = t ∧ t.shutdown? = none := by
  unfold resumeClose at hclose
  split at hclose
  · cases hclose
  next hshutdown =>
    cases hclose
    exact ⟨rfl, rfl, hshutdown⟩

/-- How a close goes: it has no effect on a closed tunnel, it leaves the sink alone while
somebody has the writer's seat, and otherwise it takes that seat for the shutdown. -/
theorem close_cases (t : Tunnel) :
    (t.isOpen = false ∧ t.close = (.done (.ok ()), t)) ∨
    (t.isOpen = true ∧ t.writerSeat.isHeld = true ∧ t.close = (.done (.ok ()), t.shut)) ∨
    (t.isOpen = true ∧ t.writerSeat.isHeld = false ∧
      t.close = (t.shut.draw .writer).2.resumeClose t.writerSeat.next) := by
  unfold close
  cases hopen : t.isOpen with
  | false => simp
  | true =>
      cases hheld : t.writerSeat.isHeld with
      | true => simp [shut, hheld]
      | false =>
          refine Or.inr (Or.inr ⟨rfl, rfl, ?_⟩)
          have hticket : (t.shut.draw .writer).1 = t.writerSeat.next := fst_draw _ _
          simp [← hticket, shut, hheld]

/-- Whether a close waits or ends, the tunnel stays as closed as it was. -/
theorem isOpen_resumeClose : (t.resumeClose ticket).2.isOpen = t.isOpen := by
  unfold resumeClose
  split
  next result middle hshutdown =>
    rw [isOpen_leave]
    exact (sameButSink_shutdown? hshutdown).isOpen_eq
  · rfl

/-- However a close stands, the flag is cleared. -/
theorem isOpen_close (t : Tunnel) : t.close.2.isOpen = false := by
  rcases t.close_cases with ⟨hopen, hclose⟩ | ⟨_, _, hclose⟩ | ⟨_, _, hclose⟩
  · rw [hclose]
    exact hopen
  · rw [hclose]
    rfl
  · rw [hclose, isOpen_resumeClose, isOpen_draw]
    rfl

/-- A close is about the writer's seat only. -/
theorem seat_reader_resumeClose : (t.resumeClose ticket).2.seat .reader = t.seat .reader := by
  unfold resumeClose
  split
  next result middle hshutdown =>
    exact (sameButSink_shutdown? hshutdown).seat_eq .reader
  · rfl

/-- Readers keep their places while the tunnel is closed. -/
theorem seat_reader_close (t : Tunnel) : t.close.2.seat .reader = t.seat .reader := by
  rcases t.close_cases with ⟨_, hclose⟩ | ⟨_, _, hclose⟩ | ⟨_, _, hclose⟩
  · rw [hclose]
  · rw [hclose]
    rfl
  · rw [hclose, seat_reader_resumeClose]
    rfl

end LongPollTunnel.Tunnel

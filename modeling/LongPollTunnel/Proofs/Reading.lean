import Mathlib.Data.List.Flatten
import LongPollTunnel.Proofs.Framing
import LongPollTunnel.Tunnel.Reader

/-! # What a reader does with what arrives

A reader hands out whole instructions and keeps every other byte: what arrived is what it
handed out followed by what it still has. However a stream is cut into reads, the batches
of a fresh reader are its longest prefix of whole instructions, and the first failure is a
matter of what follows that prefix and of how the stream ends.
-/

namespace LongPollTunnel

open Framing

namespace Arrival

/-- The bytes that an arrival brings. -/
def bytes : Arrival → List UInt8
  | .data bytes => bytes
  | .finish | .fail _ => []

/-- How a stream ends: with a read error for this reason, or in good order. -/
def ofEnding : Option String → Arrival
  | some reason => .fail reason
  | none => .finish

@[simp] theorem bytes_ofEnding (ending : Option String) : (ofEnding ending).bytes = [] := by
  cases ending <;> rfl

/-- What is no arrival has no bytes. -/
theorem flatMap_bytes_filter (arrivals : List Arrival) :
    (arrivals.filter isReal).flatMap bytes = arrivals.flatMap bytes := by
  induction arrivals with
  | nil => rfl
  | cons arrival rest ih =>
      rw [List.filter_cons]
      split
      · rw [List.flatMap_cons, List.flatMap_cons, ih]
      next hnone =>
        have hempty : arrival = .data [] := by simpa [isReal] using hnone
        rw [ih, hempty]
        rfl

end Arrival

namespace Reader

/-- What a reader has and was not handed out yet: the buffer and what is to be read. -/
def unread (r : Reader) : List UInt8 :=
  r.buffer ++ r.source.flatMap Arrival.bytes

/-- The prefix that is taken to be complete is made of whole instructions. -/
structure Sound (r : Reader) : Prop where
  complete_le : r.complete ≤ r.buffer.length
  whole_complete : Whole (r.buffer.take r.complete)

/-- Where nothing was found complete nothing can be wrong about it. -/
theorem sound_of_complete_eq_zero {r : Reader} (hcomplete : r.complete = 0) : r.Sound where
  complete_le := by omega
  whole_complete := by
    rw [hcomplete]
    exact .nil

/-- What a source brings is unread. -/
@[simp] theorem unread_feed (r : Reader) (arrivals : List Arrival) :
    (r.feed arrivals).unread = r.unread ++ arrivals.flatMap Arrival.bytes := by
  simp [unread, feed, Arrival.flatMap_bytes_filter]

theorem Sound.feed {r : Reader} (hr : r.Sound) (arrivals : List Arrival) :
    (r.feed arrivals).Sound :=
  ⟨hr.complete_le, hr.whole_complete⟩

/-! ## Looking at the buffer -/

@[simp] theorem buffer_scan (r : Reader) : r.scan.buffer = r.buffer := rfl

@[simp] theorem source_scan (r : Reader) : r.scan.source = r.source := rfl

@[simp] theorem ended_scan (r : Reader) : r.scan.ended = r.ended := rfl

/-- A scan finds the longest prefix of whole instructions, whatever part of it was found
before. -/
theorem complete_scan {r : Reader} (hr : r.Sound) :
    r.scan.complete = (wholePart r.buffer).length := by
  have hsplit := completePrefix_append hr.whole_complete (r.buffer.drop r.complete)
  rw [List.take_append_drop, completePrefix_eq, Prod.mk.injEq] at hsplit
  rw [hsplit.1, List.length_take_of_le hr.complete_le]
  rfl

/-- A scan holds back the fault of the first unfinished instruction, unless something is held back
already. -/
theorem pending_scan {r : Reader} (hr : r.Sound) :
    r.scan.pending = r.pending.or ((fault? (openPart r.buffer)).map Failure.ofFault) := by
  have hsplit := completePrefix_append hr.whole_complete (r.buffer.drop r.complete)
  rw [List.take_append_drop, completePrefix_eq, Prod.mk.injEq] at hsplit
  rw [hsplit.2]
  rfl

/-- What a scan finds complete is the whole part of the buffer. -/
theorem take_complete_scan {r : Reader} (hr : r.Sound) :
    r.buffer.take r.scan.complete = wholePart r.buffer := by
  rw [complete_scan hr]
  exact (List.prefix_iff_eq_take.mp (List.take_prefix _ _)).symm

theorem Sound.scan {r : Reader} (hr : r.Sound) : r.scan.Sound where
  complete_le := by
    rw [complete_scan hr]
    exact (List.take_prefix _ _).length_le
  whole_complete := by
    rw [buffer_scan, take_complete_scan hr]
    exact whole_wholePart _

/-- Looking at the buffer takes nothing from it. -/
theorem check_conserves (r : Reader) :
    r.check.2.buffer = r.buffer ∧ r.check.2.source = r.source := by
  unfold check
  dsimp only
  split
  · exact ⟨rfl, rfl⟩
  · split
    · exact ⟨rfl, rfl⟩
    · split <;> exact ⟨rfl, rfl⟩

theorem Sound.check {r : Reader} (hr : r.Sound) : r.check.2.Sound := by
  have hscan := hr.scan
  unfold Reader.check
  dsimp only
  split
  · exact hscan
  · split
    · exact ⟨hscan.complete_le, hscan.whole_complete⟩
    · split <;> exact hscan

theorem Sound.receive {r : Reader} (hr : r.Sound) (arrival : Arrival) :
    (r.receive arrival).Sound := by
  cases arrival with
  | data bytes =>
      refine ⟨?_, ?_⟩
      · have hle := hr.complete_le
        simp only [Reader.receive, List.length_append]
        omega
      · simp only [Reader.receive, List.take_append_of_le_length hr.complete_le]
        exact hr.whole_complete
  | finish => exact ⟨hr.complete_le, hr.whole_complete⟩
  | fail reason => exact ⟨hr.complete_le, hr.whole_complete⟩

/-- What is taken in comes behind the buffer. -/
@[simp] theorem buffer_receive (r : Reader) (arrival : Arrival) :
    (r.receive arrival).buffer = r.buffer ++ arrival.bytes := by
  cases arrival <;> simp [receive, Arrival.bytes]

/-! ## Reading -/

/-- A wait moves bytes from the source into the buffer and loses none. -/
theorem unread_awaitFrom (source : List Arrival) (r : Reader) :
    (awaitFrom source r).2.unread = r.buffer ++ source.flatMap Arrival.bytes := by
  induction source generalizing r with
  | nil => simp [awaitFrom, unread, r.check_conserves.1]
  | cons arrival rest ih =>
      have hbuffer := r.check_conserves.1
      unfold awaitFrom
      split
      next next hcheck =>
        rw [hcheck] at hbuffer
        rw [ih, buffer_receive, hbuffer, List.flatMap_cons, List.append_assoc]
      next outcome next _ hcheck =>
        rw [hcheck] at hbuffer
        simp only [unread, ← hbuffer]

theorem Sound.awaitFrom {r : Reader} (hr : r.Sound) (source : List Arrival) :
    (awaitFrom source r).2.Sound := by
  induction source generalizing r with
  | nil => exact ⟨hr.check.complete_le, hr.check.whole_complete⟩
  | cons arrival rest ih =>
      have hcheck := hr.check
      unfold Reader.awaitFrom
      split
      next next heq =>
        rw [heq] at hcheck
        exact ih (hcheck.receive arrival)
      next outcome next _ heq =>
        rw [heq] at hcheck
        exact ⟨hcheck.complete_le, hcheck.whole_complete⟩

theorem unread_await (closed : Bool) (r : Reader) : (r.await closed).2.unread = r.unread := by
  unfold await
  split
  · rfl
  · exact unread_awaitFrom _ _

/-- However a wait ends, the reader it leaves is sound. -/
theorem Sound.await {r : Reader} (hr : r.Sound) (closed : Bool) : (r.await closed).2.Sound := by
  unfold Reader.await
  split
  · exact hr
  · exact hr.awaitFrom _

/-- What a read of a batch has handed out. -/
def handed : Outcome Failure (List UInt8) → List UInt8
  | .done batch => batch
  | .failed _ | .waiting => []

/-- A read of a batch neither loses a byte nor makes one up. -/
theorem unread_readSome (closed expired : Bool) (r : Reader) :
    handed (r.readSome closed expired).1 ++ (r.readSome closed expired).2.unread =
      r.unread := by
  rw [← r.unread_await closed]
  unfold readSome
  split
  next next hawait =>
    rw [hawait]
    simp only [handed, unread, ← List.append_assoc, List.take_append_drop]
  next failure next hawait =>
    rw [hawait]
    rfl
  next next hawait =>
    rw [hawait]
    cases expired <;> rfl

/-- A batch consists of whole instructions. -/
theorem whole_readSome {r : Reader} (hr : r.Sound) (closed expired : Bool) :
    Whole (handed (r.readSome closed expired).1) := by
  have hawait := hr.await closed
  unfold readSome
  split
  next next heq =>
    rw [heq] at hawait
    exact hawait.whole_complete
  · exact .nil
  · cases expired <;> exact .nil

/-- A batch that is handed out leaves nothing complete behind. -/
theorem Sound.readSome {r : Reader} (hr : r.Sound) (closed expired : Bool) :
    (r.readSome closed expired).2.Sound := by
  have hawait := hr.await closed
  unfold Reader.readSome
  split
  · exact sound_of_complete_eq_zero rfl
  next failure next heq =>
    rw [heq] at hawait
    exact hawait
  next next heq =>
    rw [heq] at hawait
    exact hawait

/-! ## Reading one instruction -/

/-- A wait is over when something is complete. -/
theorem complete_pos_of_check {r next : Reader} (hcheck : r.check = (.done (), next)) :
    0 < next.complete := by
  unfold check at hcheck
  dsimp only at hcheck
  split at hcheck
  next hcomplete =>
    cases hcheck
    exact hcomplete
  · split at hcheck
    · cases hcheck
    · split at hcheck <;> cases hcheck

theorem complete_pos_of_awaitFrom {source : List Arrival} {r next : Reader}
    (hawait : awaitFrom source r = (.done (), next)) : 0 < next.complete := by
  induction source generalizing r with
  | nil =>
      cases hcheck : r.check with
      | mk outcome checked =>
          simp only [awaitFrom, hcheck, Prod.mk.injEq] at hawait
          obtain ⟨rfl, rfl⟩ := hawait
          have hsome : 0 < checked.complete := complete_pos_of_check hcheck
          exact hsome
  | cons arrival rest ih =>
      unfold awaitFrom at hawait
      split at hawait
      · exact ih hawait
      next outcome checked _ hcheck =>
        obtain ⟨rfl, rfl⟩ := Prod.mk.inj hawait
        have hsome : 0 < checked.complete := complete_pos_of_check hcheck
        exact hsome

/-- A wait that ends well has found an instruction. -/
theorem complete_pos_of_await {closed : Bool} {r next : Reader}
    (hawait : r.await closed = (.done (), next)) : 0 < next.complete := by
  unfold await at hawait
  split at hawait
  · cases hawait
  · exact complete_pos_of_awaitFrom hawait

/-- What is complete begins with an instruction, which is taken off the buffer. -/
theorem exists_first_of_complete {r : Reader} (hr : r.Sound) (hsome : 0 < r.complete) :
    ∃ instruction rest, r.buffer = instruction ++ rest ∧ instruction ≠ [] ∧
      instructionEnd instruction = .ok (some instruction.length) ∧
      instruction.length ≤ r.complete ∧ Whole (rest.take (r.complete - instruction.length)) := by
  have hle := hr.complete_le
  have hlength : (r.buffer.take r.complete).length = r.complete := List.length_take_of_le hle
  have hne : r.buffer.take r.complete ≠ [] := List.ne_nil_of_length_pos (by omega)
  obtain ⟨instruction, later, hsplit, hinstruction, hend, hlater⟩ :=
    hr.whole_complete.exists_first hne
  have hwithin : instruction.length + later.length = r.complete := by
    rw [← List.length_append, ← hsplit, hlength]
  refine ⟨instruction, later ++ r.buffer.drop r.complete, ?_, hinstruction, hend, by omega, ?_⟩
  · rw [← List.append_assoc, ← hsplit, List.take_append_drop]
  · rw [List.take_append_of_le_length (by omega), List.take_of_length_le (by omega)]
    exact hlater

/-- The instruction at the front is taken, and it alone. -/
theorem takeInstruction_eq {r : Reader} {instruction rest : List UInt8}
    (hbuffer : r.buffer = instruction ++ rest)
    (hend : instructionEnd instruction = .ok (some instruction.length)) :
    r.takeInstruction =
      (match Instruction.decode instruction with
        | .ok i => .done i
        | .error fault => .failed (.ofFault fault),
        { r with buffer := rest, complete := r.complete - instruction.length }) := by
  unfold takeInstruction
  rw [hbuffer, instructionEnd_append hend rest]
  simp only [List.take_left, List.drop_left]
  cases Instruction.decode instruction <;> rfl

/-- What follows the instruction that was taken is complete as before. -/
theorem Sound.takeInstruction {r : Reader} (hr : r.Sound) (hsome : 0 < r.complete) :
    r.takeInstruction.2.Sound := by
  obtain ⟨instruction, rest, hbuffer, _, hend, hle, hwhole⟩ := exists_first_of_complete hr hsome
  have hcomplete := hr.complete_le
  rw [takeInstruction_eq hbuffer hend]
  refine ⟨?_, hwhole⟩
  rw [hbuffer, List.length_append] at hcomplete
  exact Nat.sub_le_iff_le_add'.mpr hcomplete

theorem Sound.readInstruction {r : Reader} (hr : r.Sound) (closed : Bool) :
    (r.readInstruction closed).2.Sound := by
  have hawait := hr.await closed
  unfold Reader.readInstruction
  split
  next next heq =>
    rw [heq] at hawait
    exact hawait.takeInstruction (complete_pos_of_await heq)
  next failure next heq =>
    rw [heq] at hawait
    exact hawait
  next next heq =>
    rw [heq] at hawait
    exact hawait

/-! ## Looking ahead -/

/-- A reader that has looked at its buffer and then reads this arrival ahead. -/
def readAhead (r : Reader) (arrival : Arrival) (rest : List Arrival) : Reader :=
  (({ r.scan with source := rest } : Reader).receive arrival).scan

/-- What a look ahead comes to, and the reader that it leaves. -/
inductive Look (closed : Bool) (r : Reader) : Bool × Reader → Prop where
  /-- There is something to be reported already. -/
  | told (htold : (closed || r.pending.isSome) = true) : Look closed r (true, r)
  | found (hopen : (closed || r.pending.isSome) = false) (hnews : r.scan.hasNews = true) :
      Look closed r (true, r.scan)
  /-- There is nothing to be had, and nothing to be read either. -/
  | nothing (hopen : (closed || r.pending.isSome) = false) (hnews : r.scan.hasNews = false)
      (hover : r.ended = true ∨ r.source = []) : Look closed r (false, r.scan)
  | read {arrival : Arrival} {rest : List Arrival}
      (hopen : (closed || r.pending.isSome) = false) (hnews : r.scan.hasNews = false)
      (hended : r.ended = false) (hsource : r.source = arrival :: rest) :
      Look closed r ((r.readAhead arrival rest).hasNews, r.readAhead arrival rest)

/-- A look ahead goes one of four ways. -/
theorem look_available (closed : Bool) (r : Reader) : Look closed r (r.available closed) := by
  unfold available
  split
  next htold => exact .told htold
  next hopen =>
    rw [Bool.not_eq_true] at hopen
    dsimp only
    split
    next hnews => exact .found hopen hnews
    next hnews =>
      rw [Bool.not_eq_true] at hnews
      split
      next hended => exact .nothing hopen hnews (Or.inl hended)
      next hended =>
        rw [ended_scan, Bool.not_eq_true] at hended
        split
        next hsource => exact .nothing hopen hnews (Or.inr hsource)
        next arrival rest hsource => exact .read hopen hnews hended hsource

/-- Looking ahead takes from the source only what it puts into the buffer. -/
theorem unread_available (closed : Bool) (r : Reader) :
    (r.available closed).2.unread = r.unread := by
  have hlook := look_available closed r
  generalize r.available closed = looked at hlook ⊢
  cases hlook with
  | told htold => rfl
  | found hopen hnews => rfl
  | nothing hopen hnews hover => rfl
  | @read arrival rest hopen hnews hended hsource =>
      cases arrival <;> simp [unread, readAhead, hsource, receive, Arrival.bytes]

theorem Sound.readAhead {r : Reader} (hr : r.Sound) (arrival : Arrival) (rest : List Arrival) :
    (r.readAhead arrival rest).Sound := by
  have hrest : ({ r.scan with source := rest } : Reader).Sound :=
    ⟨hr.scan.complete_le, hr.scan.whole_complete⟩
  exact (hrest.receive arrival).scan

/-- Whatever a look ahead takes in, the reader stays sound. -/
theorem Sound.available {r : Reader} (hr : r.Sound) (closed : Bool) :
    (r.available closed).2.Sound := by
  have hlook := look_available closed r
  generalize r.available closed = looked at hlook ⊢
  cases hlook with
  | told htold => exact hr
  | found hopen hnews => exact hr.scan
  | nothing hopen hnews hover => exact hr.scan
  | read hopen hnews hended hsource => exact hr.readAhead _ _

/-! ## How long a read waits -/

theorem idleTimeout_check (r : Reader) : r.check.2.idleTimeout = r.idleTimeout := by
  unfold check
  dsimp only
  split
  · rfl
  · split
    · rfl
    · split <;> rfl

theorem idleTimeout_receive (r : Reader) (arrival : Arrival) :
    (r.receive arrival).idleTimeout = r.idleTimeout := by
  cases arrival <;> rfl

theorem idleTimeout_awaitFrom (source : List Arrival) (r : Reader) :
    (awaitFrom source r).2.idleTimeout = r.idleTimeout := by
  induction source generalizing r with
  | nil => exact r.idleTimeout_check
  | cons arrival rest ih =>
      have hcheck := r.idleTimeout_check
      unfold awaitFrom
      split
      next next heq =>
        rw [heq] at hcheck
        rw [ih, idleTimeout_receive, hcheck]
      next outcome next _ heq =>
        rw [heq] at hcheck
        exact hcheck

theorem idleTimeout_await (closed : Bool) (r : Reader) :
    (r.await closed).2.idleTimeout = r.idleTimeout := by
  unfold await
  split
  · rfl
  · exact idleTimeout_awaitFrom _ _

theorem idleTimeout_readSome (closed expired : Bool) (r : Reader) :
    (r.readSome closed expired).2.idleTimeout = r.idleTimeout := by
  rw [← r.idleTimeout_await closed]
  unfold readSome
  split
  next next heq => rw [heq]
  next failure next heq => rw [heq]
  next next heq => rw [heq]

theorem idleTimeout_takeInstruction (r : Reader) :
    r.takeInstruction.2.idleTimeout = r.idleTimeout := by
  unfold takeInstruction
  split
  · rfl
  · rfl
  · dsimp only
    split <;> rfl

theorem idleTimeout_readInstruction (closed : Bool) (r : Reader) :
    (r.readInstruction closed).2.idleTimeout = r.idleTimeout := by
  rw [← r.idleTimeout_await closed]
  unfold readInstruction
  split
  next next heq => rw [heq, idleTimeout_takeInstruction]
  next failure next heq => rw [heq]
  next next heq => rw [heq]

theorem idleTimeout_available (closed : Bool) (r : Reader) :
    (r.available closed).2.idleTimeout = r.idleTimeout := by
  have hlook := look_available closed r
  generalize r.available closed = looked at hlook ⊢
  cases hlook with
  | told htold => rfl
  | found hopen hnews => rfl
  | nothing hopen hnews hover => rfl
  | read hopen hnews hended hsource => exact idleTimeout_receive _ _

/-- Something complete is something to hand out. -/
theorem take_complete_ne_nil {r : Reader} (hr : r.Sound) (hsome : 0 < r.complete) :
    r.buffer.take r.complete ≠ [] := by
  intro hnil
  have hlength := List.length_take_of_le hr.complete_le
  rw [hnil, List.length_nil] at hlength
  omega

/-- A read of a batch gives nothing at all only if it would have to wait and its time is up. -/
theorem await_of_readSome {closed expired : Bool} {r : Reader} (hr : r.Sound)
    (hread : (r.readSome closed expired).1 = .done []) :
    expired = true ∧ r.await closed = (.waiting, (r.readSome closed expired).2) := by
  have hnext := hr.await closed
  unfold readSome at hread ⊢
  cases hawait : r.await closed with
  | mk outcome next =>
      rw [hawait] at hread hnext
      cases outcome with
      | done value =>
          -- a batch that is handed out is not empty
          have hsome := take_complete_ne_nil hnext (complete_pos_of_await hawait)
          exact absurd (Outcome.done.inj hread) hsome
      | failed failure => cases hread
      | waiting =>
          cases expired
          · cases hread
          · exact ⟨rfl, rfl⟩

/-- A read of a batch gives nothing at all only when its time is up. -/
theorem expired_of_readSome {closed expired : Bool} {r : Reader} (hr : r.Sound)
    (hread : (r.readSome closed expired).1 = .done []) : expired = true :=
  (await_of_readSome hr hread).1

/-- A read waits only on a tunnel that is open, and only until its time is up. -/
theorem intact_of_readSome {closed expired : Bool} {r : Reader}
    (hread : (r.readSome closed expired).1 = .waiting) : closed = false ∧ expired = false := by
  unfold readSome at hread
  split at hread
  · cases hread
  · cases hread
  next next heq =>
    cases closed
    · cases expired
      · exact ⟨rfl, rfl⟩
      · cases hread
    · simp [await] at heq

end Reader

end LongPollTunnel

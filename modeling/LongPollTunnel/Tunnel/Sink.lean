/-! # Sinks

A sink takes the bytes written to a tunnel. What it does once it has taken so many
bytes is part of its value: it may take them in small pieces, fail, take nothing more,
or make its writer wait.
-/

namespace LongPollTunnel

/-- How a sink treats its writer. A bound counts all bytes taken so far. -/
structure Sink.Manner where
  /-- Most bytes that one write takes. -/
  maxWrite : Option Nat := none
  /-- From this bound on writes fail with `errorText`. -/
  errorAt : Option Nat := none
  errorText : String := "broken"
  /-- From this bound on writes take nothing. -/
  zeroAt : Option Nat := none
  /-- From this bound on writes wait. -/
  blockAt : Option Nat := none
  /-- What flushes fail with from `flushErrorAt` on. -/
  flushError : Option String := none
  flushErrorAt : Nat := 0
  /-- From this bound on flushes wait. -/
  flushBlockAt : Option Nat := none
  shutdownError : Option String := none
  shutdownBlocks : Bool := false
  deriving DecidableEq, Repr, Inhabited

/-- A sink with the bytes that it has taken and how often it was flushed and shut
down. -/
structure Sink where
  manner : Sink.Manner := {}
  accepted : List UInt8 := []
  flushes : Nat := 0
  shutdowns : Nat := 0
  deriving DecidableEq, Repr, Inhabited

namespace Sink

/-- What a sink does with one write. -/
inductive Reply where
  | take (count : Nat)
  | fail (reason : String)
  | wait
  deriving DecidableEq, Repr

/-- A bound that has been reached. -/
def isPast (total : Nat) (bound : Option Nat) : Bool :=
  bound.any fun n => decide (n ≤ total)

/-- Caps a count so that the total does not cross a bound. -/
def capAt (total : Nat) (bound : Option Nat) (count : Nat) : Nat :=
  match bound with
  | some n => min count (n - total)
  | none => count

/-- The reply to a write of `length` bytes. An error goes before taking nothing, and
that before waiting; a write that would cross a bound is taken up to it. -/
def reply (s : Sink) (length : Nat) : Reply :=
  let total := s.accepted.length
  let m := s.manner
  if isPast total m.errorAt then .fail m.errorText
  else if isPast total m.zeroAt then .take 0
  else if isPast total m.blockAt then .wait
  else
    .take <| capAt total m.errorAt <| capAt total m.zeroAt <| capAt total m.blockAt <|
      capAt 0 m.maxWrite length

/-- How the writing of some bytes stands. -/
inductive Written where
  | all
  | failed (reason : String)
  | blocked (rest : List UInt8)
  deriving DecidableEq, Repr

/-- Writes until all bytes are taken, in at most `rounds` writes. -/
def writeWithin : Nat → Sink → List UInt8 → Written × Sink
  | _, s, [] => (.all, s)
  | 0, s, bytes => (.blocked bytes, s)
  | rounds + 1, s, bytes =>
    match s.reply bytes.length with
    | .fail reason => (.failed reason, s)
    | .wait => (.blocked bytes, s)
    | .take 0 => (.failed "write zero", s)
    | .take count =>
      writeWithin rounds { s with accepted := s.accepted ++ bytes.take count }
        (bytes.drop count)

/-- The part of some bytes that is still to be written. -/
def Written.IsRest (written : Written) (rest : List UInt8) : Prop :=
  match written with
  | .all => rest = []
  | .blocked left => rest = left
  | .failed _ => True

/-- The sink takes a prefix of the bytes, as they are, and what is left is the rest. -/
theorem accepted_writeWithin (rounds : Nat) (s : Sink) (bytes : List UInt8) :
    ∃ taken rest, bytes = taken ++ rest ∧
      (writeWithin rounds s bytes).2.accepted = s.accepted ++ taken ∧
      (writeWithin rounds s bytes).1.IsRest rest := by
  induction rounds generalizing s bytes with
  | zero =>
      refine ⟨[], bytes, rfl, ?_, ?_⟩ <;> cases bytes <;> simp [writeWithin, Written.IsRest]
  | succ rounds ih =>
      cases bytes with
      | nil => exact ⟨[], [], rfl, by simp [writeWithin], by simp [writeWithin, Written.IsRest]⟩
      | cons byte tail =>
          simp only [writeWithin]
          split
          · exact ⟨[], _, rfl, by simp, trivial⟩
          · exact ⟨[], _, rfl, by simp, rfl⟩
          · exact ⟨[], _, rfl, by simp, trivial⟩
          · rename_i count _ _
            obtain ⟨taken, rest, hbytes, haccepted, hrest⟩ :=
              ih { s with accepted := s.accepted ++ (byte :: tail).take count }
                ((byte :: tail).drop count)
            refine ⟨(byte :: tail).take count ++ taken, rest, ?_, ?_, hrest⟩
            · rw [List.append_assoc, ← hbytes, List.take_append_drop]
            · rw [haccepted, List.append_assoc]

/-- Writes all bytes. A write that does not end the matter takes one byte at least, so
there are no more writes than bytes. -/
def writeAll (s : Sink) (bytes : List UInt8) : Written × Sink :=
  writeWithin bytes.length s bytes

/-- Why a flush fails, if it does. -/
def flushFault? (s : Sink) : Option String :=
  if s.manner.flushErrorAt ≤ s.accepted.length then s.manner.flushError else none

/-- Flushes, or `none` while the sink makes its caller wait. A flush that fails counts
too. -/
def flush? (s : Sink) : Option (Except String Unit × Sink) :=
  if isPast s.accepted.length s.manner.flushBlockAt then none
  else
    some (match s.flushFault? with
      | some reason => .error reason
      | none => .ok (),
      { s with flushes := s.flushes + 1 })

/-- Shuts down, or `none` while the sink makes its caller wait. A shutdown that fails
counts too. -/
def shutdown? (s : Sink) : Option (Except String Unit × Sink) :=
  if s.manner.shutdownBlocks then none
  else
    some (match s.manner.shutdownError with
      | some reason => .error reason
      | none => .ok (),
      { s with shutdowns := s.shutdowns + 1 })

/-- The sink once it treats its writer in another manner. -/
def withManner (s : Sink) (manner : Manner) : Sink :=
  { s with manner }

/-- What a sink may show later of the manner that it has shown first: where it does not make
its writer wait, it takes the next byte and the next flush as before. -/
structure Manner.Unfolds (early late : Manner) : Prop where
  reply_eq : ∀ s : Sink, s.manner = early → s.reply 1 ≠ .wait →
    (s.withManner late).reply 1 = s.reply 1
  flush?_eq : ∀ s : Sink, s.manner = early → ∀ result after, s.flush? = some (result, after) →
    (s.withManner late).flush? = some (result, after.withManner late)

theorem Manner.unfolds_refl (manner : Manner) : manner.Unfolds manner where
  reply_eq := by
    rintro s rfl _
    rfl
  flush?_eq := by
    rintro s rfl result after hflush
    unfold flush? at hflush ⊢
    split at hflush
    · cases hflush
    next hprompt =>
      cases hflush
      exact if_neg hprompt

end Sink

end LongPollTunnel

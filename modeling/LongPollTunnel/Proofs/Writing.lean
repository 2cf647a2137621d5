import LongPollTunnel.Proofs.Tunnels

/-! # What a sink takes and how often it is flushed

A write hands the front of its bytes to the sink and keeps the rest; nothing else hands any
over, and nothing but a flush flushes. Main statement: what the outcome of a write tells of
the bytes that were taken.
-/

namespace LongPollTunnel

/-- Writing flushes nothing on its own. -/
theorem Sink.flushes_writeWithin (rounds : Nat) (s : Sink) (bytes : List UInt8) :
    (s.writeWithin rounds bytes).2.flushes = s.flushes := by
  induction rounds generalizing s bytes with
  | zero => cases bytes <;> rfl
  | succ rounds ih =>
      cases bytes with
      | nil => rfl
      | cons byte tail =>
          simp only [Sink.writeWithin]
          split
          · rfl
          · rfl
          · rfl
          · exact ih _ _

/-- A write hands over the front of its bytes: all of them if it is done, and all but the
rest if it waits. -/
theorem Sink.exists_taken_of_put {closed : Bool} {s after : Sink} {bytes : List UInt8}
    {writing : Writing} (hput : s.put closed bytes = (writing, after)) :
    ∃ taken rest, bytes = taken ++ rest ∧ after.accepted = s.accepted ++ taken ∧
      after.flushes = s.flushes ∧ (writing = .done → rest = []) ∧
      ∀ left, writing = .waiting left → rest = left := by
  unfold put at hput
  split at hput
  · cases hput
    exact ⟨[], bytes, rfl, (List.append_nil _).symm, rfl, by simp, by simp⟩
  · obtain ⟨taken, rest, hbytes, haccepted, hrest⟩ := accepted_writeWithin bytes.length s bytes
    have hflushes := flushes_writeWithin bytes.length s bytes
    refine ⟨taken, rest, hbytes, ?_⟩
    unfold writeAll at hput
    cases hwritten : writeWithin bytes.length s bytes with
    | mk written sink =>
        rw [hwritten] at haccepted hflushes hrest hput
        cases written with
        | all =>
            cases hput
            exact ⟨haccepted, hflushes, fun _ => hrest, by simp⟩
        | failed reason =>
            cases hput
            exact ⟨haccepted, hflushes, by simp, by simp⟩
        | blocked left =>
            cases hput
            refine ⟨haccepted, hflushes, by simp, ?_⟩
            intro left' heq
            cases heq
            exact hrest

namespace Tunnel

variable {t after : Tunnel}

/-- A write at a tunnel hands over a prefix of the bytes, and what it waits with is the rest. -/
theorem exists_taken_of_writeAll {bytes : List UInt8} {writing : Writing}
    (hwrite : t.writeAll bytes = (writing, after)) :
    ∃ taken rest, bytes = taken ++ rest ∧ after.sink.accepted = t.sink.accepted ++ taken ∧
      after.sink.flushes = t.sink.flushes ∧ (writing = .done → rest = []) ∧
      ∀ left, writing = .waiting left → rest = left := by
  have hput : t.sink.put (!t.isOpen) bytes = (writing, after.sink) := by
    cases hwrite
    rfl
  exact Sink.exists_taken_of_put hput

/-- A flush that does not have to wait hands nothing over, and counts even if it fails. -/
theorem sink_flush? {result : Except Failure Unit} (hflush : t.flush? = some (result, after)) :
    after.sink.accepted = t.sink.accepted ∧ after.sink.flushes = t.sink.flushes + 1 := by
  obtain ⟨⟨_, sink⟩, hout, heq⟩ := Option.map_eq_some_iff.mp hflush
  cases heq
  rw [Sink.eq_of_flushOut? hout]
  exact ⟨rfl, rfl⟩

/-- Nothing was written to the sink and it was not flushed. -/
structure Unwritten (t after : Tunnel) : Prop where
  accepted : after.sink.accepted = t.sink.accepted
  flushes : after.sink.flushes = t.sink.flushes

theorem unwritten_of_sink_eq (heq : after.sink = t.sink) : t.Unwritten after := by
  constructor <;> rw [heq]

theorem Unwritten.trans {last : Tunnel} (hfirst : t.Unwritten after)
    (hsecond : after.Unwritten last) :
    t.Unwritten last :=
  ⟨hsecond.accepted.trans hfirst.accepted, hsecond.flushes.trans hfirst.flushes⟩

/-- A shutdown hands nothing over. -/
theorem unwritten_shutdown? {result : Except Failure Unit}
    (hshutdown : t.shutdown? = some (result, after)) : t.Unwritten after := by
  obtain ⟨⟨_, sink⟩, hclose, heq⟩ := Option.map_eq_some_iff.mp hshutdown
  cases heq
  obtain ⟨⟨_, sink'⟩, hdown, heq⟩ := Option.map_eq_some_iff.mp hclose
  cases heq
  unfold Sink.shutdown? at hdown
  split at hdown
  · cases hdown
  · cases hdown
    exact ⟨rfl, rfl⟩

theorem unwritten_leave (t : Tunnel) (role : Role) (ticket : Nat) :
    t.Unwritten (t.leave role ticket) :=
  unwritten_of_sink_eq (sink_leave t role ticket)

theorem unwritten_resumeClose (t : Tunnel) (ticket : Nat) :
    t.Unwritten (t.resumeClose ticket).2 := by
  unfold resumeClose
  split
  next result middle hshutdown =>
    exact (unwritten_shutdown? hshutdown).trans (middle.unwritten_leave .writer ticket)
  · exact ⟨rfl, rfl⟩

/-- Nor does a close, however it stands. -/
theorem unwritten_close (t : Tunnel) : t.Unwritten t.close.2 := by
  rcases t.close_cases with ⟨_, hclose⟩ | ⟨_, _, hclose⟩ | ⟨_, _, hclose⟩
  · rw [hclose]
    exact ⟨rfl, rfl⟩
  · rw [hclose]
    exact ⟨rfl, rfl⟩
  · rw [hclose]
    have hdrawn : t.Unwritten (t.shut.draw .writer).2 :=
      unwritten_of_sink_eq (sink_draw t.shut .writer)
    exact hdrawn.trans (unwritten_resumeClose _ _)

end Tunnel

end LongPollTunnel

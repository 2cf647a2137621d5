import LongPollTunnel.Outcome
import LongPollTunnel.Tunnel.Sink

/-! # Writing to a sink

The write side of a tunnel passes bytes to its sink as they are. Only writes are refused
once the tunnel is closed, and only those that wait are over then: a flush and a shutdown
reach the sink all the same, and go on waiting for it.
-/

namespace LongPollTunnel

/-- Where a write stands; one that waits still has `rest` to write. -/
inductive Writing where
  | done
  | failed (failure : Failure)
  | waiting (rest : List UInt8)
  deriving DecidableEq, Repr

namespace Sink

/-- Writes bytes. A write that was waiting when the tunnel was closed is over. -/
def put (closed : Bool) (s : Sink) (bytes : List UInt8) : Writing × Sink :=
  if closed then (.failed .tunnelClosed, s)
  else
    match s.writeAll bytes with
    | (.all, s) => (.done, s)
    | (.failed reason, s) => (.failed (.writing reason), s)
    | (.blocked rest, s) => (.waiting rest, s)

/-- Flushes what was written, or `none` while that has to wait. -/
def flushOut? (s : Sink) : Option (Except Failure Unit × Sink) :=
  s.flush?.map fun (result, s) => (result.mapError .flushing, s)

/-- A flush that is over was counted, whether it failed or not, and changed nothing else. -/
theorem eq_of_flushOut? {s after : Sink} {result : Except Failure Unit}
    (hflush : s.flushOut? = some (result, after)) : after = { s with flushes := s.flushes + 1 } := by
  obtain ⟨⟨found, flushed⟩, hfound, heq⟩ := Option.map_eq_some_iff.mp hflush
  cases heq
  unfold flush? at hfound
  split at hfound
  · cases hfound
  · cases hfound
    rfl

/-- Shuts the sink down, or `none` while that has to wait. -/
def close? (s : Sink) : Option (Except Failure Unit × Sink) :=
  s.shutdown?.map fun (result, s) => (result.mapError .shuttingDown, s)

end Sink

end LongPollTunnel

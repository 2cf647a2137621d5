import LongPollTunnel.Failure

/-! # Outcomes of calls that may wait -/

namespace LongPollTunnel

/-- Where a call stands: it is done, it failed, or it goes on once something else has
happened. -/
inductive Outcome (ε α : Type) where
  | done (value : α)
  | failed (failure : ε)
  | waiting
  deriving DecidableEq, Repr

end LongPollTunnel

import LongPollTunnel.Hub.Action

/-! # Runs of a hub

A run is any sequence of moves: something is done from outside, an agent goes one step
on, or the news of the calls is taken. The order is free, so a law that holds along
every run holds for whatever order the agents are let go on in. Main statement: what a
hub comes to by being played is reached by a run.
-/

namespace LongPollTunnel

/-- One thing that happens to a hub. -/
inductive Move where
  | act (action : Action)
  | go (agent : Agent)
  | takeNews

namespace Hub

/-- The hub after a move; an agent that has to wait cannot move. -/
def after? (h : Hub) : Move → Option Hub
  | .act action => some (h.apply action).2
  | .go agent => h.resume agent
  | .takeNews => some h.withoutNews

/-- There is a run from one hub to another. -/
inductive Reaches : Hub → Hub → Prop where
  | refl (h : Hub) : Reaches h h
  | move {start middle finish : Hub} (move : Move)
      (hmove : start.after? move = some middle) (hrest : Reaches middle finish) :
      Reaches start finish

namespace Reaches

theorem trans {first second third : Hub} (hfirst : Reaches first second)
    (hsecond : Reaches second third) : Reaches first third := by
  induction hfirst with
  | refl => exact hsecond
  | move move hmove _ ih => exact .move move hmove (ih hsecond)

theorem single {start finish : Hub} (move : Move)
    (hmove : start.after? move = some finish) : Reaches start finish :=
  .move move hmove (.refl finish)

/-- What holds at the start and is kept by every move holds along every run. -/
theorem invariant {P : Hub → Prop} {start finish : Hub} (hrun : Reaches start finish)
    (hstart : P start)
    (hkeep : ∀ h move next, P h → h.after? move = some next → P next) : P finish := by
  induction hrun with
  | refl => exact hstart
  | move move hmove _ ih => exact ih (hkeep _ _ _ hstart hmove)

end Reaches

theorem reaches_drive (agent : Agent) (steps : Nat) (h : Hub) :
    Reaches h (drive agent steps h) := by
  induction steps generalizing h with
  | zero => exact .refl h
  | succ steps ih =>
      unfold drive
      split
      · rename_i next hnext
        exact .move (.go agent) hnext (ih next)
      · exact .refl h

theorem reaches_serve (steps turns : Nat) (queue : List Agent) (h : Hub) :
    Reaches h (serve steps turns queue h) := by
  induction turns generalizing queue h with
  | zero => exact .refl h
  | succ turns ih =>
      cases queue with
      | nil => exact .refl h
      | cons agent queue => exact (reaches_drive agent steps h).trans (ih _ _)

theorem reaches_foldl_drive (steps : Nat) (agents : List Agent) (h : Hub) :
    Reaches h (agents.foldl (fun h agent => drive agent steps h) h) := by
  induction agents generalizing h with
  | nil => exact .refl h
  | cons agent rest ih => exact (reaches_drive agent steps h).trans (ih _)

theorem reaches_settleWithin (steps turns rounds : Nat) (h : Hub) :
    Reaches h (settleWithin steps turns rounds h) := by
  induction rounds generalizing h with
  | zero => exact .refl h
  | succ rounds ih =>
      simp only [settleWithin]
      split
      · exact reaches_serve _ _ _ _
      · exact ((reaches_serve _ _ _ _).trans (reaches_foldl_drive _ _ _)).trans (ih _)

theorem reaches_settle (h : Hub) : Reaches h h.settle :=
  reaches_settleWithin _ _ _ h

/-- Playing a hub is a run of it. -/
theorem reaches_play (h : Hub) (action : Action) : Reaches h (h.play action).2 :=
  .move .takeNews rfl (.move (.act action) rfl (reaches_settle _))

end Hub

end LongPollTunnel

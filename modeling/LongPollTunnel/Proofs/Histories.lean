import Mathlib.Data.List.Induction
import LongPollTunnel.Hub.Run

/-! # Runs with their records

A record is one move of a run with the hub before it and after it. What can be observed of
a run, such as what was handed out or answered, is read off its records, oldest first. Main
statement: every run has records, and the records of a run can be cut anywhere. A run whose
moves are known can be replayed.
-/

namespace LongPollTunnel.Hub

/-- One move of a run. -/
structure Record where
  before : Hub
  move : Move
  after : Hub

/-- A run from one hub to another, with a record for every move. -/
inductive Run (start : Hub) : List Record → Hub → Prop where
  | nil : Run start [] start
  | snoc {log : List Record} {h next : Hub} {move : Move} (hrun : Run start log h)
      (hmove : h.after? move = some next) : Run start (log ++ [⟨h, move, next⟩]) next

namespace Run

variable {start h : Hub} {log : List Record}

theorem reaches (hrun : Run start log h) : Reaches start h := by
  induction hrun with
  | nil => exact .refl start
  | snoc _ hmove ih => exact ih.trans (.single _ hmove)

theorem start_eq (hrun : Run start [] h) : h = start := by
  generalize hlog : ([] : List Record) = log at hrun
  cases hrun with
  | nil => rfl
  | snoc => simp at hlog

theorem cons {next : Hub} {move : Move} (hmove : start.after? move = some next)
    (hrun : Run next log h) : Run start (⟨start, move, next⟩ :: log) h := by
  induction hrun with
  | nil => exact Run.nil.snoc hmove
  | snoc _ hlast ih => exact ih.snoc hlast

/-- Whatever is reached is reached by a run with records. -/
theorem exists_of_reaches (hreaches : Reaches start h) : ∃ log, Run start log h := by
  induction hreaches with
  | refl => exact ⟨[], .nil⟩
  | move move hmove _ ih =>
      obtain ⟨log, hrun⟩ := ih
      exact ⟨_, hrun.cons hmove⟩

/-- The records of a run can be cut anywhere. -/
theorem split {first second : List Record} (hrun : Run start (first ++ second) h) :
    ∃ middle, Run start first middle ∧ Run middle second h := by
  induction second using List.reverseRecOn generalizing h with
  | nil =>
      rw [List.append_nil] at hrun
      exact ⟨h, hrun, .nil⟩
  | append_singleton second r ih =>
      rw [← List.append_assoc] at hrun
      generalize hlog : first ++ second ++ [r] = log at hrun
      cases hrun with
      | nil => simp at hlog
      | snoc hbefore hmove =>
          obtain ⟨rfl, hlast⟩ := List.append_inj' hlog rfl
          obtain ⟨middle, hfirst, hsecond⟩ := ih hbefore
          cases hlast
          exact ⟨middle, hfirst, hsecond.snoc hmove⟩

theorem record {pre post : List Record} {r : Record} (hrun : Run start (pre ++ r :: post) h) :
    Run start pre r.before ∧ r.before.after? r.move = some r.after ∧ Run r.after post h := by
  obtain ⟨middle, hpre, hrest⟩ := hrun.split
  rw [← List.singleton_append] at hrest
  obtain ⟨later, hone, hpost⟩ := hrest.split
  generalize hlog : [r] = log at hone
  cases hone with
  | nil => cases hlog
  | snoc hnone hmove =>
      rw [← List.nil_append [r]] at hlog
      obtain ⟨hempty, hlast⟩ := List.append_inj' hlog rfl
      subst hempty
      cases hlast
      obtain rfl := hnone.start_eq
      exact ⟨hpre, hmove, hpost⟩

/-- A run with some moves begins with the first of them. -/
theorem exists_cons {move : Move} {moves : List Move} (hrun : Run start log h)
    (hmoves : log.map (·.move) = move :: moves) :
    ∃ next rest, log = ⟨start, move, next⟩ :: rest ∧ start.after? move = some next ∧
      Run next rest h ∧ rest.map (·.move) = moves := by
  cases log with
  | nil => cases hmoves
  | cons r rest =>
      obtain ⟨before, move', next⟩ := r
      obtain ⟨rfl, hrest⟩ := List.cons.inj hmoves
      rw [← List.nil_append (_ :: rest)] at hrun
      obtain ⟨hbegin, hmove, hafter⟩ := hrun.record
      obtain rfl : before = start := hbegin.start_eq
      exact ⟨next, rest, rfl, hmove, hafter, hrest⟩

/-- Runs with the same moves are the same. -/
theorem unique {log' : List Record} {h' : Hub} (hrun : Run start log h) (hrun' : Run start log' h')
    (hmoves : log.map (·.move) = log'.map (·.move)) : log = log' ∧ h = h' := by
  induction hrun generalizing log' h' with
  | nil =>
      cases hrun' with
      | nil => exact ⟨rfl, rfl⟩
      | snoc => simp at hmoves
  | snoc _ hmove ih =>
      cases hrun' with
      | nil => simp at hmoves
      | snoc hrun' hmove' =>
          rw [List.map_append, List.map_append] at hmoves
          obtain ⟨hbefore, hlast⟩ := List.append_inj' hmoves rfl
          obtain ⟨rfl, rfl⟩ := ih hrun' hbefore
          obtain rfl := List.singleton_inj.mp hlast
          rw [hmove] at hmove'
          obtain rfl := Option.some.inj hmove'
          exact ⟨rfl, rfl⟩

end Run

/-- The records of some moves and the hub after them; it ends before a move that cannot be
made. -/
def replay (h : Hub) : List Move → List Record × Hub
  | [] => ([], h)
  | move :: rest =>
    match h.after? move with
    | some next => (⟨h, move, next⟩ :: (next.replay rest).1, (next.replay rest).2)
    | none => ([], h)

theorem run_replay (h : Hub) (moves : List Move) :
    Run h (h.replay moves).1 (h.replay moves).2 := by
  induction moves generalizing h with
  | nil => exact .nil
  | cons move rest ih =>
      unfold replay
      split
      next after hmove => exact (ih after).cons hmove
      · exact .nil

/-- If no move is left out, the records are of those moves. -/
theorem map_move_replay {h : Hub} {moves : List Move}
    (hall : (h.replay moves).1.length = moves.length) : (h.replay moves).1.map (·.move) = moves := by
  induction moves generalizing h with
  | nil => rfl
  | cons move rest ih =>
      unfold replay at hall ⊢
      split at hall
      next after hmove =>
        simp only [List.map_cons, List.cons.injEq, true_and]
        exact ih (Nat.succ.inj hall)
      · cases hall

end LongPollTunnel.Hub

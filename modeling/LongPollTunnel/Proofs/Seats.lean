import Mathlib.Data.List.Nodup
import LongPollTunnel.Tunnel.Seat

/-! # The tickets of a seat

The tickets of a seat are served in the order in which they were drawn, and nobody waits
for a seat that is free. Drawing puts a ticket at the end of that order, and giving one
back takes it out wherever it stands.
-/

namespace LongPollTunnel

namespace Seat

/-- The tickets that were not given back, the one being served first. -/
def tickets (s : Seat) : List Nat :=
  s.serving.toList ++ s.waiting

/-- Tickets are served in the order of their numbers, and nobody waits for a free seat. -/
structure Ordered (s : Seat) : Prop where
  waiting_eq_nil : s.serving = none → s.waiting = []
  pairwise_lt : s.tickets.Pairwise (· < ·)
  lt_next : ∀ ticket ∈ s.tickets, ticket < s.next

theorem ordered_empty : ({} : Seat).Ordered where
  waiting_eq_nil := fun _ => rfl
  pairwise_lt := List.Pairwise.nil
  lt_next := by simp [tickets]

theorem isServing_iff {s : Seat} {ticket : Nat} :
    s.isServing ticket = true ↔ s.serving = some ticket := by
  simp [isServing]

/-- A new ticket comes behind all that are there. -/
theorem tickets_draw {s : Seat} (hs : s.Ordered) : s.draw.2.tickets = s.tickets ++ [s.next] := by
  cases hserving : s.serving with
  | none => simp [draw, tickets, hserving, hs.waiting_eq_nil hserving]
  | some ticket => simp [draw, tickets, hserving]

@[simp] theorem next_draw (s : Seat) : s.draw.2.next = s.next + 1 := by
  unfold draw
  split <;> rfl

/-- Drawing keeps the tickets in order, for the next number is above them all. -/
theorem Ordered.draw {s : Seat} (hs : s.Ordered) : s.draw.2.Ordered where
  waiting_eq_nil := by
    intro hfree
    have hheld := isHeld_draw s
    simp [isHeld, hfree] at hheld
  pairwise_lt := by
    rw [tickets_draw hs]
    refine List.pairwise_append.mpr ⟨hs.pairwise_lt, List.pairwise_singleton _ _, ?_⟩
    intro ticket hticket other hother
    rw [List.mem_singleton.mp hother]
    exact hs.lt_next ticket hticket
  lt_next := by
    intro ticket hticket
    rw [tickets_draw hs] at hticket
    rw [next_draw]
    rcases List.mem_append.mp hticket with hold | hnew
    · exact Nat.lt_succ_of_lt (hs.lt_next ticket hold)
    · rw [List.mem_singleton.mp hnew]
      exact Nat.lt_succ_self _

/-- Giving a ticket back takes it out, wherever it stands. -/
theorem tickets_leave (s : Seat) (ticket : Nat) :
    (s.leave ticket).tickets = s.tickets.erase ticket := by
  cases hserving : s.serving with
  | none => simp [leave, isServing, tickets, hserving]
  | some served =>
      by_cases heq : served = ticket
      · subst heq
        cases hwaiting : s.waiting <;> simp [leave, isServing, tickets, hserving, hwaiting]
      · simp [leave, isServing, tickets, hserving, heq]

@[simp] theorem next_leave (s : Seat) (ticket : Nat) : (s.leave ticket).next = s.next := by
  unfold leave
  split <;> rfl

/-- Leaving takes one ticket out and keeps the order of the others. -/
theorem Ordered.leave {s : Seat} (hs : s.Ordered) (ticket : Nat) : (s.leave ticket).Ordered where
  waiting_eq_nil := by
    unfold Seat.leave
    split
    · cases hwaiting : s.waiting <;> simp
    · intro hfree
      simp [hs.waiting_eq_nil hfree]
  pairwise_lt := by
    rw [tickets_leave]
    exact hs.pairwise_lt.sublist List.erase_sublist
  lt_next := by
    intro other hother
    rw [tickets_leave] at hother
    rw [next_leave]
    exact hs.lt_next other (List.mem_of_mem_erase hother)

/-- Nobody loses the seat to one who comes. -/
theorem isServing_draw {s : Seat} {ticket : Nat} (hserving : s.isServing ticket = true) :
    s.draw.2.isServing ticket = true := by
  rw [isServing_iff] at hserving ⊢
  simp [draw, hserving]

/-- A holder keeps the seat while others come and go. -/
theorem isServing_leave_of_ne {s : Seat} {ticket other : Nat}
    (hserving : s.isServing ticket = true) (hne : other ≠ ticket) :
    (s.leave other).isServing ticket = true := by
  rw [isServing_iff] at hserving ⊢
  simp [leave, isServing, hserving, hne.symm]

/-- A ticket is there once at most. -/
theorem nodup_tickets {s : Seat} (hs : s.Ordered) : s.tickets.Nodup :=
  hs.pairwise_lt.imp Nat.ne_of_lt

/-! ## Later on -/

/-- What a seat comes to: tickets are given back, and new ones are drawn from the next on. -/
structure Later (s after : Seat) : Prop where
  next_le : s.next ≤ after.next
  old_or_new : ∀ ticket ∈ after.tickets, ticket ∈ s.tickets ∨ s.next ≤ ticket

theorem later_refl (s : Seat) : s.Later s :=
  ⟨Nat.le_refl _, fun _ => Or.inl⟩

theorem Later.trans {s middle after : Seat} (hfirst : s.Later middle)
    (hsecond : middle.Later after) :
    s.Later after where
  next_le := Nat.le_trans hfirst.next_le hsecond.next_le
  old_or_new := by
    intro ticket hticket
    rcases hsecond.old_or_new ticket hticket with hold | hnew
    · exact hfirst.old_or_new ticket hold
    · exact Or.inr (Nat.le_trans hfirst.next_le hnew)

/-- A seat from which a ticket was drawn is a later one. -/
theorem later_draw (s : Seat) : s.Later s.draw.2 where
  next_le := by
    rw [next_draw]
    exact Nat.le_succ _
  old_or_new := by
    intro ticket hticket
    cases hserving : s.serving with
    | none =>
        simp only [draw, hserving, tickets, Option.toList_some, List.singleton_append,
          List.mem_cons] at hticket
        rcases hticket with rfl | hwaiting
        · exact Or.inr (Nat.le_refl _)
        · exact Or.inl (List.mem_append_right _ hwaiting)
    | some served =>
        simp only [draw, hserving, tickets, ← List.append_assoc] at hticket
        rcases List.mem_append.mp hticket with hold | hnew
        · rw [tickets, hserving]
          exact Or.inl hold
        · exact Or.inr (Nat.le_of_eq (List.mem_singleton.mp hnew).symm)

/-- So is a seat that was left. -/
theorem later_leave (s : Seat) (ticket : Nat) : s.Later (s.leave ticket) where
  next_le := Nat.le_of_eq (next_leave s ticket).symm
  old_or_new := by
    intro other hother
    rw [tickets_leave] at hother
    exact Or.inl (List.mem_of_mem_erase hother)

end Seat

end LongPollTunnel

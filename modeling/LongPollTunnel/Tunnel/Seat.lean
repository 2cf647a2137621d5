/-! # Seats

A seat is held by one caller at a time. Callers draw tickets; the one whose turn it is
holds the seat until it leaves, and then the longest waiting one takes over at once, so
nobody can slip in between. A caller that gives up leaves the queue where it stands.
-/

namespace LongPollTunnel

/-- The tickets of a seat: the one being served, those that wait in order of arrival,
and the next one to draw. -/
structure Seat where
  serving : Option Nat := none
  waiting : List Nat := []
  next : Nat := 0
  deriving DecidableEq, Repr, Inhabited

namespace Seat

def isHeld (s : Seat) : Bool :=
  s.serving.isSome

def isServing (s : Seat) (ticket : Nat) : Bool :=
  s.serving = some ticket

/-- Draws a ticket. It is served at once if nobody holds the seat. -/
def draw (s : Seat) : Nat × Seat :=
  match s.serving with
  | none => (s.next, { s with serving := some s.next, next := s.next + 1 })
  | some _ => (s.next, { s with waiting := s.waiting ++ [s.next], next := s.next + 1 })

/-- Gives a ticket back, served or not. -/
def leave (s : Seat) (ticket : Nat) : Seat :=
  if s.isServing ticket then
    { s with serving := s.waiting.head?, waiting := s.waiting.tail }
  else { s with waiting := s.waiting.erase ticket }

@[simp] theorem fst_draw (s : Seat) : s.draw.1 = s.next := by
  unfold draw
  split <;> rfl

@[simp] theorem isHeld_draw (s : Seat) : s.draw.2.isHeld = true := by
  unfold draw isHeld
  split
  · rfl
  · simp_all

/-- A free seat is taken at once. -/
theorem isServing_draw_of_not_isHeld {s : Seat} (hfree : s.isHeld = false) :
    s.draw.2.isServing s.draw.1 = true := by
  cases hserving : s.serving with
  | none => simp [draw, isServing, hserving]
  | some ticket => simp [isHeld, hserving] at hfree

/-- The one that waited longest takes over. -/
theorem serving_leave_of_isServing {s : Seat} {ticket : Nat}
    (hserving : s.isServing ticket = true) :
    (s.leave ticket).serving = s.waiting.head? := by
  simp [leave, hserving]

end Seat

end LongPollTunnel

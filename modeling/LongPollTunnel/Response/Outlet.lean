import LongPollTunnel.Instruction.Basic

/-! # Outlets of streamed responses

What is written to a response is buffered and handed to its body in chunks. The body
keeps a few chunks for a client that is slow to take them; a client that is gone takes
none. The terminating instruction goes out with whatever is still buffered.
-/

namespace LongPollTunnel

/-- The writing end of a streamed response and what its body has been given. -/
structure Outlet where
  /-- Written but not handed over. -/
  buffer : List UInt8 := []
  /-- Every chunk handed over, oldest first. -/
  chunks : List (List UInt8) := []
  /-- How many chunks the client has taken. -/
  taken : Nat := 0
  /-- The client is gone. -/
  abandoned : Bool := false
  /-- No further chunk will come. -/
  finished : Bool := false
  deriving DecidableEq, Repr, Inhabited

namespace Outlet

/-- More buffered bytes than this are handed over at once. -/
def bufferSize : Nat := 8192

/-- Most chunks that wait for the client. -/
def capacity : Nat := 16

def write (o : Outlet) (bytes : List UInt8) : Outlet :=
  { o with buffer := o.buffer ++ bytes }

/-- The buffer has grown past its size. -/
def isOverfull (o : Outlet) : Bool :=
  decide (bufferSize < o.buffer.length)

/-- Something was written to the response. -/
def hasWritten (o : Outlet) : Bool :=
  !o.chunks.isEmpty || !o.buffer.isEmpty

/-- What becomes of handing the buffer over. -/
inductive Flush where
  | passed (outlet : Outlet)
  /-- The client has to take a chunk first. -/
  | full
  | gone

/-- Hands the buffer over as one chunk; an empty one is not handed over. -/
def flush (o : Outlet) : Flush :=
  if o.buffer.isEmpty then .passed o
  else if o.abandoned then .gone
  else if o.chunks.length - o.taken < capacity then
    .passed { o with buffer := [], chunks := o.chunks ++ [o.buffer] }
  else .full

/-- Writes the terminating instruction. -/
def terminate (o : Outlet) : Outlet :=
  o.write Instruction.terminator

/-- Everything written to the response, handed over or not. -/
def content (o : Outlet) : List UInt8 :=
  o.chunks.flatten ++ o.buffer

@[simp] theorem content_write (o : Outlet) (bytes : List UInt8) :
    (o.write bytes).content = o.content ++ bytes := by
  simp [content, write]

/-- A flush moves bytes on and loses none. -/
theorem content_flush {o after : Outlet} (hflush : o.flush = .passed after) :
    after.content = o.content := by
  unfold flush at hflush
  split at hflush
  · cases hflush; rfl
  · split at hflush
    · cases hflush
    · split at hflush
      · cases hflush; simp [content]
      · cases hflush

/-- After a flush nothing is held back. -/
theorem buffer_flush {o after : Outlet} (hflush : o.flush = .passed after) :
    after.buffer = [] := by
  unfold flush at hflush
  split at hflush
  · cases hflush; simp_all
  · split at hflush
    · cases hflush
    · split at hflush
      · cases hflush; rfl
      · cases hflush

/-- What the client finds at the body. -/
inductive Portion where
  | chunk (bytes : List UInt8) (outlet : Outlet)
  | finish
  | nothingYet

/-- The client takes the next chunk. -/
def take (o : Outlet) : Portion :=
  match o.chunks[o.taken]? with
  | some bytes => .chunk bytes { o with taken := o.taken + 1 }
  | none => if o.finished then .finish else .nothingYet

end Outlet

end LongPollTunnel

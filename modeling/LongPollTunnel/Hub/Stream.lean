import LongPollTunnel.Registry
import LongPollTunnel.Response.Outlet

/-! # Streaming instructions to a response

A stream holds the reader's seat of a tunnel and copies batches of instructions to its
outlet. It flushes before it would wait for more, and it ends with the terminating
instruction when nothing came for too long or when another reader waits. A failure
takes the tunnel down first, so that a client that sees the end of its response finds
the tunnel gone.
-/

namespace LongPollTunnel

/-- What a stream does once its outlet is flushed. -/
inductive Stream.Next where
  /-- See whether more can be had at once. -/
  | lookAhead
  /-- See whether another reader waits. -/
  | yield
  /-- Leave the tunnel. -/
  | leave
  deriving DecidableEq, Repr

/-- What a stream is about to do, and may have to wait for. -/
inductive Stream.Phase where
  | reading (deadline : Option Nat)
  | flushing (next : Stream.Next)
  /-- The failed tunnel is being closed under a ticket for the writer's seat. -/
  | closing (failure : Failure) (ticket : Nat)
  | ended
  deriving DecidableEq, Repr

/-- The streaming of one read response. -/
structure Stream where
  /-- The number of the tunnel. -/
  tunnel : Nat
  /-- The ticket for the reader's seat. -/
  ticket : Nat
  phase : Stream.Phase
  outlet : Outlet := {}
  deriving DecidableEq, Repr

namespace Stream

/-- What a stream acts on besides itself. -/
structure Surroundings where
  registry : Registry
  tunnel : Tunnel
  deriving DecidableEq

/-- When a read that starts now gives up. -/
def deadline (now : Nat) (t : Tunnel) : Option Nat :=
  t.reader.idleTimeout.map (now + ·)

/-- A stream that has just been given the reader's seat. -/
def start (now number ticket : Nat) (t : Tunnel) : Stream where
  tunnel := number
  ticket := ticket
  phase := .reading (deadline now t)

/-- Gives the seat back. -/
def leave (s : Stream) (around : Surroundings) : Surroundings × Stream :=
  ({ around with tunnel := around.tunnel.leave .reader s.ticket },
    { s with phase := .ended, outlet := { s.outlet with finished := true } })

/-- Writes the terminating instruction and sends it. -/
def finish (s : Stream) : Stream :=
  { s with phase := .flushing .leave, outlet := s.outlet.terminate }

/-- Ends after the tunnel was taken down. A response that has nothing in it yet tells
of a failure by its lack of a terminating instruction. -/
def afterTeardown (s : Stream) (failure : Failure) (around : Surroundings) :
    Surroundings × Stream :=
  if failure.isClosed || s.outlet.hasWritten then (around, s.finish) else s.leave around

/-- Takes the tunnel down. -/
def fail (s : Stream) (failure : Failure) (around : Surroundings) :
    Surroundings × Stream :=
  match around.registry.teardown around.tunnel with
  | (_, .done _, registry, tunnel) => s.afterTeardown failure ⟨registry, tunnel⟩
  | (_, .waiting ticket, registry, tunnel) =>
    (⟨registry, tunnel⟩, { s with phase := .closing failure ticket })

/-- Hands over to a waiting reader, or reads on. -/
def yield (now : Nat) (s : Stream) (around : Surroundings) : Surroundings × Stream :=
  if around.tunnel.hasQueuedReader then (around, s.finish)
  else (around, { s with phase := .reading (deadline now around.tunnel) })

/-- Flushes unless more can be had at once. -/
def lookAhead (now : Nat) (s : Stream) (around : Surroundings) : Surroundings × Stream :=
  match around.tunnel.available with
  | (true, tunnel) => s.yield now { around with tunnel }
  | (false, tunnel) => ({ around with tunnel }, { s with phase := .flushing .yield })

/-- Writes a batch to the outlet. -/
def write (now : Nat) (s : Stream) (batch : List UInt8) (around : Surroundings) :
    Surroundings × Stream :=
  let s := { s with outlet := s.outlet.write batch }
  if s.outlet.isOverfull then (around, { s with phase := .flushing .lookAhead })
  else s.lookAhead now around

/-- Goes on after a flush. -/
def flushed (now : Nat) (s : Stream) (next : Next) (around : Surroundings) :
    Surroundings × Stream :=
  match next with
  | .lookAhead => s.lookAhead now around
  | .yield => s.yield now around
  | .leave => s.leave around

/-- The client is gone. At the very end that changes nothing any more. -/
def undelivered (s : Stream) (next : Next) (around : Surroundings) :
    Surroundings × Stream :=
  match next with
  | .leave => s.leave around
  | .lookAhead | .yield => s.fail .clientGone around

/-- Goes on from one phase to the next, or `none` if the stream has to wait. -/
def step (now : Nat) (s : Stream) (around : Surroundings) :
    Option (Surroundings × Stream) :=
  match s.phase with
  | .reading deadline =>
    match around.tunnel.readSome (deadline.any fun time => decide (time ≤ now)) with
    | (.done [], tunnel) => some ({ around with tunnel }, s.finish)
    | (.done batch, tunnel) => some (s.write now batch { around with tunnel })
    | (.failed failure, tunnel) => some (s.fail failure { around with tunnel })
    | (.waiting, tunnel) =>
      if around.tunnel.reader.source.isEmpty then none
      else some ({ around with tunnel }, s)
  | .flushing next =>
    match s.outlet.flush with
    | .passed outlet => some ({ s with outlet }.flushed now next around)
    | .gone => some (s.undelivered next around)
    | .full => none
  | .closing failure ticket =>
    match around.tunnel.resumeClose ticket with
    | (.done _, tunnel) => some (s.afterTeardown failure { around with tunnel })
    | (.waiting _, _) => none
  | .ended => none

end Stream

end LongPollTunnel

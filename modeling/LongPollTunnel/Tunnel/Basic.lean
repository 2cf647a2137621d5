import LongPollTunnel.Tunnel.Identity
import LongPollTunnel.Tunnel.Reader
import LongPollTunnel.Tunnel.Seat
import LongPollTunnel.Tunnel.Writer

/-! # Tunnels

A tunnel is a stream of instructions in each direction. Each direction has a seat, and
whoever holds it may read or write. Closing is final: it makes every later read and
write fail, and shuts the sink down if nobody is writing.
-/

namespace LongPollTunnel

/-- The two directions of a tunnel, each used by one caller at a time. -/
inductive Role where
  | reader
  | writer
  deriving DecidableEq, Repr

/-- What a caller who comes to a role adds to the count of queued readers. -/
def Role.queuedReaders : Role → Nat
  | .reader => 1
  | .writer => 0

/-- A bidirectional stream of instructions to a remote session. -/
structure Tunnel where
  identity : Identity
  reader : Reader := {}
  sink : Sink := {}
  readerSeat : Seat := {}
  writerSeat : Seat := {}
  /-- How many callers have come to the reader's seat and neither went on as its holder nor
  gave up. -/
  queuedReaders : Nat := 0
  isOpen : Bool := true
  deriving DecidableEq

namespace Tunnel

def seat (t : Tunnel) : Role → Seat
  | .reader => t.readerSeat
  | .writer => t.writerSeat

def setSeat (t : Tunnel) : Role → Seat → Tunnel
  | .reader, seat => { t with readerSeat := seat }
  | .writer, seat => { t with writerSeat := seat }

/-- Draws a ticket for a role. Whoever draws one to read counts as queued from then on. -/
def draw (t : Tunnel) (role : Role) : Nat × Tunnel :=
  let (ticket, seat) := (t.seat role).draw
  (ticket, { t.setSeat role seat with queuedReaders := t.queuedReaders + role.queuedReaders })

/-- A caller who came to a role does not count as queued any more: it has the role, or has
given up. -/
def unqueue (t : Tunnel) (role : Role) : Tunnel :=
  { t with queuedReaders := t.queuedReaders - role.queuedReaders }

/-- Gives a ticket for a role back. -/
def leave (t : Tunnel) (role : Role) (ticket : Nat) : Tunnel :=
  t.setSeat role ((t.seat role).leave ticket)

/-- A role is held. -/
def isInUse (t : Tunnel) : Bool :=
  t.readerSeat.isHeld || t.writerSeat.isHeld

def hasQueuedReader (t : Tunnel) : Bool :=
  decide (0 < t.queuedReaders)

/-- A summary for debugging that calls the tunnel's identity `shownAs`. -/
def describe (t : Tunnel) (shownAs : String) : String :=
  "SimpleTunnel \x7b uuid: " ++ shownAs ++ ", open: " ++
    (if t.isOpen then "true" else "false") ++ ", queued_readers: " ++
    t.queuedReaders.repr ++ ", .. \x7d"

/-- Reads a batch through the tunnel. -/
def readSome (t : Tunnel) (expired : Bool) : Outcome Failure (List UInt8) × Tunnel :=
  let (outcome, reader) := t.reader.readSome (!t.isOpen) expired
  (outcome, { t with reader })

/-- Reads one instruction through the tunnel. -/
def readInstruction (t : Tunnel) : Outcome Failure Instruction × Tunnel :=
  let (outcome, reader) := t.reader.readInstruction (!t.isOpen)
  (outcome, { t with reader })

/-- Whether a batch can be had without waiting. -/
def available (t : Tunnel) : Bool × Tunnel :=
  let (answer, reader) := t.reader.available (!t.isOpen)
  (answer, { t with reader })

/-- Writes bytes through the tunnel. -/
def writeAll (t : Tunnel) (bytes : List UInt8) : Writing × Tunnel :=
  let (writing, sink) := t.sink.put (!t.isOpen) bytes
  (writing, { t with sink })

/-- Flushes the sink, of a closed tunnel too, or `none` while that has to wait. -/
def flush? (t : Tunnel) : Option (Except Failure Unit × Tunnel) :=
  t.sink.flushOut?.map fun (result, sink) => (result, { t with sink })

/-- Shuts the sink down, or `none` while that has to wait. -/
def shutdown? (t : Tunnel) : Option (Except Failure Unit × Tunnel) :=
  t.sink.close?.map fun (result, sink) => (result, { t with sink })

/-- How a close stands. While the sink's shutdown waits, the close holds the writer's
seat under a ticket. -/
inductive Closing where
  | done (result : Except Failure Unit)
  | waiting (ticket : Nat)

/-- Goes on with a close that holds the writer's seat. -/
def resumeClose (t : Tunnel) (ticket : Nat) : Closing × Tunnel :=
  match t.shutdown? with
  | some (result, t) => (.done result, t.leave .writer ticket)
  | none => (.waiting ticket, t)

/-- Closes the tunnel. Only the first close has an effect. If somebody is writing, the
sink is left alone. -/
def close (t : Tunnel) : Closing × Tunnel :=
  if !t.isOpen then (.done (.ok ()), t)
  else
    let t := { t with isOpen := false }
    if t.writerSeat.isHeld then (.done (.ok ()), t)
    else
      let (ticket, t) := t.draw .writer
      t.resumeClose ticket

end Tunnel

end LongPollTunnel

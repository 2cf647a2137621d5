import LongPollTunnel.Hub.Handling
import LongPollTunnel.Hub.Stream
import LongPollTunnel.Hub.Sweep

/-! # Hubs

A hub is everything that goes on around one registry: the tunnels, the calls of its
users, the streams of read responses and the sweepers. Each call has a name, runs at
most one task at a time, and may hold the seats that it acquired.
-/

namespace LongPollTunnel

/-- Something that a call gets to know. -/
inductive Event where
  | acquired
  | batch (bytes : List UInt8)
  | instruction (instruction : Instruction)
  | available (answer : Bool)
  | succeeded
  | failed (failure : Failure)
  | swept (count : Nat)
  /-- The sweeper has stopped. -/
  | stopped
  /-- The sweeper could not be started. -/
  | notStarted
  | head (head : Head)
  | chunk (bytes : List UInt8)
  | finished
  deriving DecidableEq, Repr

/-- The event for the result of an operation that gives no value. -/
def Event.ofResult : Except Failure Unit → Event
  | .ok _ => .succeeded
  | .error failure => .failed failure

/-- The body of a response that a client has not dropped. -/
inductive Body where
  | empty
  | text (bytes : List UInt8)
  /-- The outlet of the stream with this number. -/
  | stream (number : Nat)
  deriving DecidableEq, Repr

/-- How much of the body a client reads on its own accord. -/
inductive Appetite where
  | everything
  /-- One chunk, or the end. -/
  | oneChunk
  deriving DecidableEq, Repr

/-- A seat of the tunnel with this number, held under a ticket. -/
structure Hold where
  tunnel : Nat
  ticket : Nat
  deriving DecidableEq, Repr

/-- What a call is waiting for. -/
inductive Task where
  | acquire (role : Role) (hold : Hold)
  | readSome (tunnel : Nat) (deadline : Option Nat)
  | readInstruction (tunnel : Nat)
  /-- Writes the rest of some bytes; an instruction is flushed after that. -/
  | write (tunnel : Nat) (rest : List UInt8) (thenFlush : Bool)
  | flush (tunnel : Nat)
  | shutdown (tunnel : Nat)
  /-- A close that holds the writer's seat. -/
  | close (hold : Hold)
  | sweep (sweep : Sweep)
  /-- Waits for a sweeper to stop. -/
  | watch (sweeper : Nat)
  /-- Handles a request; with `hold` nobody reads the response by itself. -/
  | handle (tunnel : Nat) (handling : Handling) (hold : Bool)
  | readBody (appetite : Appetite)
  deriving DecidableEq, Repr

/-- A user of the hub. -/
structure Call where
  name : String
  task : Option Task := none
  readerHold : Option Hold := none
  writerHold : Option Hold := none
  /-- It has made its one request. -/
  hasRequested : Bool := false
  upload : Upload := {}
  body : Option Body := none
  /-- It has asked its sweepers to stop; one that it starts after that stops at once. -/
  wantsNoSweeps : Bool := false
  /-- What it got to know since it was last asked. -/
  events : List Event := []
  deriving DecidableEq, Repr

namespace Call

def hold (c : Call) : Role → Option Hold
  | .reader => c.readerHold
  | .writer => c.writerHold

def setHold (c : Call) : Role → Option Hold → Call
  | .reader, hold => { c with readerHold := hold }
  | .writer, hold => { c with writerHold := hold }

def tell (c : Call) (event : Event) : Call :=
  { c with events := c.events ++ [event] }

/-- Ends the running task with an event. -/
def finish (c : Call) (event : Event) : Call :=
  { c.tell event with task := none }

def isBusy (c : Call) : Bool :=
  c.task.isSome

end Call

/-- The state of everything around one registry. -/
structure Hub where
  /-- The time, in milliseconds, that timeouts and intervals are measured in. -/
  clock : Nat := 0
  /-- The time, in milliseconds, that the registry measures ages in. It is another one than
  `clock`, but goes on with it. -/
  now : Nat := 0
  registry : Registry := {}
  tunnels : List Tunnel := []
  streams : List Stream := []
  sweepers : List Sweeper := []
  calls : List Call := []
  deriving DecidableEq

namespace Hub

def setTunnel (h : Hub) (number : Nat) (t : Tunnel) : Hub :=
  { h with tunnels := h.tunnels.set number t }

def setCall (h : Hub) (number : Nat) (c : Call) : Hub :=
  { h with calls := h.calls.set number c }

/-- Gives back a ticket for a seat of a tunnel. -/
def leave (h : Hub) (role : Role) (hold : Hold) : Hub :=
  { h with tunnels := h.tunnels.modify hold.tunnel (·.leave role hold.ticket) }

/-- A call that came to a role of a tunnel does not count as queued any more. -/
def unqueue (h : Hub) (role : Role) (tunnel : Nat) : Hub :=
  { h with tunnels := h.tunnels.modify tunnel (·.unqueue role) }

/-- Gives back a ticket, if there is one. -/
def leave? (h : Hub) (role : Role) : Option Hold → Hub
  | some hold => h.leave role hold
  | none => h

/-- Drops a task with whatever it holds. A sweep that is dropped closes none of the
tunnels that it has left, and a sweeper sweeps on with nobody waiting for it. -/
def abandon (h : Hub) : Task → Hub
  | .acquire role hold => (h.unqueue role hold.tunnel).leave role hold
  | .close hold => h.leave .writer hold
  | .sweep sweep => h.leave .writer ⟨sweep.tunnel, sweep.ticket⟩
  | .handle tunnel handling _ =>
    { h with tunnels := h.tunnels.modify tunnel handling.abandon }
  | .readSome _ _ | .readInstruction _ | .write _ _ _ | .flush _ | .shutdown _ | .watch _
  | .readBody _ => h

/-- Lets go of the body of a response. -/
def dropBody (h : Hub) : Body → Hub
  | .stream number =>
    { h with streams := h.streams.modify number fun s =>
        { s with outlet := { s.outlet with abandoned := true } } }
  | .empty | .text _ => h

end Hub

end LongPollTunnel

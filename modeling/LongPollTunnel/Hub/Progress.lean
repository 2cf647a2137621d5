import LongPollTunnel.Hub.Basic

/-! # How a hub goes on

Everything that goes on in a hub belongs to an agent: a call, a stream or a sweeper. An
agent goes on in single steps until it has to wait. A hub has settled when no agent can
go on; whatever an agent waits for then has to come from outside.
-/

namespace LongPollTunnel

/-- What can go on in a hub, by its number. -/
inductive Agent where
  | call (number : Nat)
  | stream (number : Nat)
  | sweeper (number : Nat)
  deriving DecidableEq, Repr

namespace Hub

/-- A wait for a seat is over once the ticket is served. The seat of that role that
the call held before is given up. -/
def resumeAcquire (h : Hub) (number : Nat) (c : Call) (role : Role) (hold : Hold) :
    Option Hub := do
  let t ← h.tunnels[hold.tunnel]?
  if (t.seat role).isServing hold.ticket then
    some (((h.unqueue role hold.tunnel).leave? role (c.hold role)).setCall number
      ((c.setHold role (some hold)).finish .acquired))
  else none

def resumeReadSome (h : Hub) (number : Nat) (c : Call) (tunnel : Nat)
    (deadline : Option Nat) : Option Hub := do
  let t ← h.tunnels[tunnel]?
  match t.readSome (deadline.any fun time => decide (time ≤ h.clock)) with
  | (.done bytes, t') => some ((h.setTunnel tunnel t').setCall number (c.finish (.batch bytes)))
  | (.failed failure, t') =>
    some ((h.setTunnel tunnel t').setCall number (c.finish (.failed failure)))
  | (.waiting, t') => if t.reader.source.isEmpty then none else some (h.setTunnel tunnel t')

def resumeReadInstruction (h : Hub) (number : Nat) (c : Call) (tunnel : Nat) :
    Option Hub := do
  let t ← h.tunnels[tunnel]?
  match t.readInstruction with
  | (.done instruction, t') =>
    some ((h.setTunnel tunnel t').setCall number (c.finish (.instruction instruction)))
  | (.failed failure, t') =>
    some ((h.setTunnel tunnel t').setCall number (c.finish (.failed failure)))
  | (.waiting, t') => if t.reader.source.isEmpty then none else some (h.setTunnel tunnel t')

/-- Ends a write, or goes on to the flush if one is due. -/
def finishWrite (h : Hub) (number : Nat) (c : Call) (tunnel : Nat) (thenFlush : Bool) : Hub :=
  h.setCall number
    (if thenFlush then { c with task := some (.flush tunnel) } else c.finish .succeeded)

def resumeWrite (h : Hub) (number : Nat) (c : Call) (tunnel : Nat) (rest : List UInt8)
    (thenFlush : Bool) : Option Hub := do
  let t ← h.tunnels[tunnel]?
  match t.writeAll rest with
  | (.done, t) => some ((h.setTunnel tunnel t).finishWrite number c tunnel thenFlush)
  | (.failed failure, t) =>
    some ((h.setTunnel tunnel t).setCall number (c.finish (.failed failure)))
  | (.waiting rest', t) =>
    if rest' = rest then none
    else
      some ((h.setTunnel tunnel t).setCall number
        { c with task := some (.write tunnel rest' thenFlush) })

def resumeFlush (h : Hub) (number : Nat) (c : Call) (tunnel : Nat) : Option Hub := do
  let t ← h.tunnels[tunnel]?
  let (result, t) ← t.flush?
  some ((h.setTunnel tunnel t).setCall number (c.finish (.ofResult result)))

def resumeShutdown (h : Hub) (number : Nat) (c : Call) (tunnel : Nat) : Option Hub := do
  let t ← h.tunnels[tunnel]?
  let (result, t) ← t.shutdown?
  some ((h.setTunnel tunnel t).setCall number (c.finish (.ofResult result)))

def resumeClose (h : Hub) (number : Nat) (c : Call) (hold : Hold) : Option Hub := do
  let t ← h.tunnels[hold.tunnel]?
  match t.resumeClose hold.ticket with
  | (.done result, t) =>
    some ((h.setTunnel hold.tunnel t).setCall number (c.finish (.ofResult result)))
  | (.waiting _, _) => none

/-- Takes up how far a sweep got. -/
def keepSweep (h : Hub) (number : Nat) (c : Call) : Sweep.Progress → Hub
  | .done count => h.setCall number (c.finish (.swept count))
  | .waiting sweep => h.setCall number { c with task := some (.sweep sweep) }

def resumeSweep (h : Hub) (number : Nat) (c : Call) (sweep : Sweep) : Option Hub := do
  let (progress, tunnels) ← sweep.resume h.tunnels
  some ({ h with tunnels }.keepSweep number c progress)

def resumeWatch (h : Hub) (number : Nat) (c : Call) (sweeper : Nat) : Option Hub := do
  let s ← h.sweepers[sweeper]?
  if s.hasStopped then some (h.setCall number (c.finish .stopped)) else none

/-- Gives a call its response. Unless the response is held back, its client starts to
read the body. -/
def respond (h : Hub) (number : Nat) (c : Call) (head : Head) (body : Body) (hold : Bool) :
    Hub :=
  h.setCall number
    { c.tell (.head head) with
      body := some body
      task := if hold then none else some (.readBody .everything) }

def resumeHandling (h : Hub) (number : Nat) (c : Call) (tunnel : Nat)
    (handling : Handling) (hold : Bool) : Option Hub := do
  let t ← h.tunnels[tunnel]?
  let (progress, after) ← handling.step ⟨h.registry, t, c.upload⟩
  let h := { h.setTunnel tunnel after.tunnel with registry := after.registry }
  let c := { c with upload := after.upload }
  match progress with
  | .goOn handling =>
    some (h.setCall number { c with task := some (.handle tunnel handling hold) })
  | .answer head => some (h.respond number c head .empty hold)
  | .stream ticket =>
    some ({ h with
        streams := h.streams ++ [Stream.start h.clock tunnel ticket after.tunnel] }.respond
      number c .reading (.stream h.streams.length) hold)

/-- Takes a chunk; a client that wants everything goes on reading. -/
def takeChunk (h : Hub) (number : Nat) (c : Call) (body : Body) (bytes : List UInt8)
    (appetite : Appetite) : Hub :=
  let c := { c with body := some body }
  h.setCall number
    (match appetite with
    | .everything => c.tell (.chunk bytes)
    | .oneChunk => c.finish (.chunk bytes))

/-- Tells that the body has ended. A client that wanted everything is done with it; one
that pulls may pull again, and finds the end again. -/
def endBody (h : Hub) (number : Nat) (c : Call) (appetite : Appetite) : Hub :=
  h.setCall number
    (match appetite with
    | .everything => { c.finish .finished with body := none }
    | .oneChunk => c.finish .finished)

def resumeReadBody (h : Hub) (number : Nat) (c : Call) (appetite : Appetite) :
    Option Hub := do
  match ← c.body with
  | .empty => some (h.endBody number c appetite)
  | .text bytes => some (h.takeChunk number c .empty bytes appetite)
  | .stream index =>
    let s ← h.streams[index]?
    match s.outlet.take with
    | .chunk bytes outlet =>
      some ({ h with streams := h.streams.set index { s with outlet } }.takeChunk number c
        (.stream index) bytes appetite)
    | .finish => some (h.endBody number c appetite)
    | .nothingYet => none

/-- One step of a call. -/
def resumeCall (h : Hub) (number : Nat) : Option Hub := do
  let c ← h.calls[number]?
  match ← c.task with
  | .acquire role hold => h.resumeAcquire number c role hold
  | .readSome tunnel deadline => h.resumeReadSome number c tunnel deadline
  | .readInstruction tunnel => h.resumeReadInstruction number c tunnel
  | .write tunnel rest thenFlush => h.resumeWrite number c tunnel rest thenFlush
  | .flush tunnel => h.resumeFlush number c tunnel
  | .shutdown tunnel => h.resumeShutdown number c tunnel
  | .close hold => h.resumeClose number c hold
  | .sweep sweep => h.resumeSweep number c sweep
  | .watch sweeper => h.resumeWatch number c sweeper
  | .handle tunnel handling hold => h.resumeHandling number c tunnel handling hold
  | .readBody appetite => h.resumeReadBody number c appetite

/-- One step of a stream. -/
def resumeStream (h : Hub) (number : Nat) : Option Hub := do
  let s ← h.streams[number]?
  let t ← h.tunnels[s.tunnel]?
  let (after, s') ← s.step h.clock ⟨h.registry, t⟩
  some { h with
    registry := after.registry
    tunnels := h.tunnels.set s.tunnel after.tunnel
    streams := h.streams.set number s' }

/-- One step of a sweeper. -/
def resumeSweeper (h : Hub) (number : Nat) : Option Hub := do
  let s ← h.sweepers[number]?
  let (s, registry, tunnels) ← s.step h.clock h.now h.registry h.tunnels
  some { h with registry, tunnels, sweepers := h.sweepers.set number s }

/-- One step of an agent, or `none` if it has to wait. -/
def resume (h : Hub) : Agent → Option Hub
  | .call number => h.resumeCall number
  | .stream number => h.resumeStream number
  | .sweeper number => h.resumeSweeper number

/-- No agent can go on. -/
def IsSettled (h : Hub) : Prop :=
  ∀ agent, h.resume agent = none

/-- The agent does not have to wait. -/
def canGoOn (h : Hub) (agent : Agent) : Bool :=
  (h.resume agent).isSome

/-- Lets an agent go on until it has to wait, for at most so many steps. -/
def drive (agent : Agent) : Nat → Hub → Hub
  | 0, h => h
  | steps + 1, h =>
    match h.resume agent with
    | some h => drive agent steps h
    | none => h

/-- The call with this number waits for a writer's seat. -/
def awaitsWriter (h : Hub) (number : Nat) : Bool :=
  match h.calls[number]?.bind (·.task) with
  | some (.acquire .writer _) | some (.handle _ (.awaitWriter _) _) => true
  | _ => false

/-- The calls and the streams, which serve requests. Calls that wait for a writer's seat
come last, since whoever gives up both seats gives up the reader's first. -/
def servants (h : Hub) : List Agent :=
  let (writers, others) := (List.range h.calls.length).partition h.awaitsWriter
  others.map .call ++ (List.range h.streams.length).map .stream ++ writers.map .call

/-- The sweepers. -/
def cleaners (h : Hub) : List Agent :=
  (List.range h.sweepers.length).map .sweeper

/-- Lets the agents of a queue go on one after the other, at most `turns` times. Whoever
can go on and is not in the queue joins it at its end after each turn, so agents go on
in the order in which they came to be able to. -/
def serve (steps : Nat) : Nat → List Agent → Hub → Hub
  | 0, _, h => h
  | _ + 1, [], h => h
  | turns + 1, agent :: queue, h =>
    let h := drive agent steps h
    serve steps turns
      (queue ++ h.servants.filter fun other => !queue.contains other && h.canGoOn other) h

/-- Lets every agent go on until none can, in at most so many rounds. Sweepers go on
only when nobody else can, so that what times out when a sweep is due is over before
the sweep looks at it. -/
def settleWithin (steps turns : Nat) : Nat → Hub → Hub
  | 0, h => h
  | rounds + 1, h =>
    let h := serve steps turns (h.servants.filter h.canGoOn) h
    match h.cleaners.filter h.canGoOn with
    | [] => h
    | sweepers => settleWithin steps turns rounds (sweepers.foldl (fun h s => drive s steps h) h)

/-- How many intervals of a sweeper have passed. -/
def overdue (clock : Nat) (s : Sweeper) : Nat :=
  (clock + s.interval - s.due) / s.interval

/-- The sum of the sizes of some things. -/
def total {α : Type} (size : α → Nat) (things : List α) : Nat :=
  things.foldr (fun thing sum => size thing + sum) 0

/-- A measure of what there is to do: arrivals, request bodies, chunks, waiting
tickets, sweeps, and everything that can wait. -/
def workload (h : Hub) : Nat :=
  total (fun t => t.reader.source.length + t.readerSeat.waiting.length +
    t.writerSeat.waiting.length + t.reader.buffer.length + 4) h.tunnels +
  total (fun c => c.upload.parts.length + 4) h.calls +
  total (fun s => s.outlet.chunks.length - s.outlet.taken + 4) h.streams +
  total (fun s => overdue h.clock s + 4) h.sweepers +
  h.registry.size + 16

/-- Lets every agent go on until none can. -/
def settle (h : Hub) : Hub :=
  settleWithin (4 * h.workload) (h.workload * h.workload) h.workload h

end Hub

end LongPollTunnel

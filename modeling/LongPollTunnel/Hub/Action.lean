import LongPollTunnel.Hub.Progress

/-! # What is done to a hub from outside

Users act on a hub through named calls, the remote ends of the tunnels act on sources
and sinks, and time passes. An action takes effect at once; the hub then settles, and
what every call got to know is taken down.
-/

namespace LongPollTunnel

/-- A request as it is handed to the hub. -/
structure Request where
  query : String
  /-- What the connector gives if it is asked: the number of a new tunnel, or why there
  is none. -/
  connection : Except Failure Nat
  upload : Upload := {}
  /-- The client leaves the body of the response alone until it pulls at it. -/
  hold : Bool := false

/-- What users of a call can do. -/
inductive CallAction where
  | acquire (tunnel : Nat) (role : Role)
  | readSome
  | readInstruction
  | available
  | writeAll (bytes : List UInt8)
  | writeInstruction (instruction : Instruction)
  | flush
  | shutdown
  | close (tunnel : Nat)
  | sweep (timeout : Nat)
  /-- Starts a sweeper. -/
  | keepSweeping (interval timeout : Nat)
  | stopSweeping
  | request (request : Request)
  /-- More of a request body comes; with `last` nothing follows. -/
  | upload (parts : List BodyPart) (last : Bool)
  | pull
  /-- Drops the running task. -/
  | abort
  /-- Drops the running task and the seats that the call holds. -/
  | release
  /-- The client of a request goes away. -/
  | drop

/-- What can be done to a hub. -/
inductive Action where
  | open (identity : Identity) (idleTimeout : Option Nat) (manner : Sink.Manner)
      (arrivals : List Arrival)
  | feed (tunnel : Nat) (arrivals : List Arrival)
  | setManner (tunnel : Nat) (manner : Sink.Manner)
  | describe (tunnel : Nat) (shownAs : String)
  | put (identity : String) (tunnel : Nat)
  | get (identity : String)
  | remove (identity : String)
  | advance (time : Nat)
  | call (name : String) (action : CallAction)

/-- Why an action has no effect. -/
inductive Objection where
  | busy
  | notHolding
  | alreadyRequested
  | noBody
  deriving DecidableEq, Repr

/-- What an action gives at once. -/
inductive Result where
  | nothing
  | number (number : Nat)
  | text (text : String)
  | found (tunnel : Option Nat)
  | refused (objection : Objection)
  deriving DecidableEq, Repr

namespace CallAction

/-- The action starts a task, which a busy call refuses. -/
def startsTask : CallAction → Bool
  | .stopSweeping | .upload _ _ | .abort | .release | .drop => false
  | .acquire _ _ | .readSome | .readInstruction | .available | .writeAll _
  | .writeInstruction _ | .flush | .shutdown | .close _ | .sweep _ | .keepSweeping _ _
  | .request _ | .pull => true

/-- The action makes a request, of which a call has only one. -/
def isRequest : CallAction → Bool
  | .request _ => true
  | _ => false

end CallAction

/-- Why a call cannot do something now. A second request is refused for good, so that is
said first. -/
def Call.objection? (c : Call) (action : CallAction) : Option Objection :=
  if action.isRequest && c.hasRequested then some .alreadyRequested
  else if action.startsTask && c.isBusy then some .busy
  else none

namespace Hub

/-- The number of the call with a name. -/
def callNumber? (h : Hub) (name : String) : Option Nat :=
  h.calls.findIdx? (·.name = name)

/-- The hub with a call of the given name, and the number of that call. -/
def withCall (h : Hub) (name : String) : Nat × Hub :=
  match h.callNumber? name with
  | some number => (number, h)
  | none => (h.calls.length, { h with calls := h.calls ++ [({ name } : Call)] })

/-- Gives a call a task. -/
def assign (h : Hub) (number : Nat) (c : Call) (task : Task) : Result × Hub :=
  (.nothing, h.setCall number { c with task := some task })

/-- Tells a call something. -/
def tell (h : Hub) (number : Nat) (c : Call) (event : Event) : Result × Hub :=
  (.nothing, h.setCall number (c.tell event))

/-- Does something with the tunnel whose seat a call holds. -/
def withHeld (h : Hub) (hold : Option Hold) (use : Nat → Tunnel → Result × Hub) :
    Result × Hub :=
  match hold with
  | none => (.refused .notHolding, h)
  | some hold =>
    match h.tunnels[hold.tunnel]? with
    | none => (.nothing, h)
    | some t => use hold.tunnel t

/-- Draws a ticket for a seat and waits for it. -/
def startAcquire (h : Hub) (number : Nat) (c : Call) (tunnel : Nat) (role : Role) :
    Result × Hub :=
  match h.tunnels[tunnel]? with
  | none => (.nothing, h)
  | some t =>
    let (ticket, t) := t.draw role
    (h.setTunnel tunnel t).assign number c (.acquire role ⟨tunnel, ticket⟩)

/-- Starts to close a tunnel. -/
def startClose (h : Hub) (number : Nat) (c : Call) (tunnel : Nat) : Result × Hub :=
  match h.tunnels[tunnel]? with
  | none => (.nothing, h)
  | some t =>
    match t.close with
    | (.done result, t) => (h.setTunnel tunnel t).tell number c (.ofResult result)
    | (.waiting ticket, t) =>
      (h.setTunnel tunnel t).assign number c (.close ⟨tunnel, ticket⟩)

def startSweep (h : Hub) (number : Nat) (c : Call) (timeout : Nat) : Result × Hub :=
  let (progress, registry, tunnels) := Sweep.start h.registry h.tunnels h.now timeout
  (.nothing, { h with registry, tunnels }.keepSweep number c progress)

/-- Starts a sweeper, which is due at once. It cannot sweep all the time, and it does not
sweep at all for a call that wants no sweeps. -/
def startSweeper (h : Hub) (number : Nat) (c : Call) (interval timeout : Nat) :
    Result × Hub :=
  if interval = 0 then h.tell number c .notStarted
  else
    let sweeper : Sweeper :=
      { owner := number, interval, timeout, due := h.clock, isStopping := c.wantsNoSweeps }
    { h with sweepers := h.sweepers ++ [sweeper] }.assign number c
      (.watch h.sweepers.length)

/-- Asks the sweepers of a call to stop. -/
def stopSweepers (h : Hub) (number : Nat) (c : Call) : Hub :=
  let sweepers := h.sweepers.map fun s =>
    if s.owner = number then { s with isStopping := true } else s
  { h with sweepers }.setCall number { c with wantsNoSweeps := true }

/-- Makes a tunnel and registers it under its identity. -/
def connect (h : Hub) (number : Nat) (c : Call) (r : Request) : Hub :=
  match r.connection with
  | .error _ => h.respond number c (.ofFailure .notCreated) .empty r.hold
  | .ok tunnel =>
    match h.tunnels[tunnel]? with
    | none => h.respond number c (.ofFailure .notCreated) .empty r.hold
    | some t =>
      { h with registry := h.registry.put t.identity.text tunnel h.now }.respond number c
        .created (.text (Utf8.ofString t.identity.text)) r.hold

/-- Draws a ticket for the role that a request needs and waits for the seat. -/
def enqueue (h : Hub) (number : Nat) (c : Call) (r : Request) (identity : String)
    (role : Role) (handling : Nat → Handling) : Hub :=
  let (found, registry) := h.registry.get identity h.now
  match found with
  | none => h.respond number c (.ofFailure .noSuchTunnel) .empty r.hold
  | some tunnel =>
    match h.tunnels[tunnel]? with
    | none => h.respond number c (.ofFailure .noSuchTunnel) .empty r.hold
    | some t =>
      let (ticket, t) := t.draw role
      ({ h with registry }.setTunnel tunnel t).setCall number
        { c with task := some (.handle tunnel (handling ticket) r.hold) }

/-- Starts to handle a request. -/
def startRequest (h : Hub) (number : Nat) (c : Call) (r : Request) : Hub :=
  let c := { c with hasRequested := true, upload := r.upload }
  match Operation.ofQuery r.query with
  | .error failure => h.respond number c (.ofFailure failure) .empty r.hold
  | .ok .connect => h.connect number c r
  | .ok (.read identity) => h.enqueue number c r identity .reader .awaitReader
  | .ok (.write identity) => h.enqueue number c r identity .writer .awaitWriter

/-- Drops the running task of a call. -/
def abortTask (h : Hub) (number : Nat) (c : Call) : Hub :=
  (match c.task with
    | some task => h.abandon task
    | none => h).setCall number { c with task := none }

/-- Drops the running task of a call and the seats that it holds. -/
def releaseAll (h : Hub) (number : Nat) (c : Call) : Hub :=
  (((h.abortTask number c).leave? .reader c.readerHold).leave? .writer c.writerHold).setCall
    number { c with task := none, readerHold := none, writerHold := none }

/-- Drops the running task of a call and the body of its response. -/
def dropClient (h : Hub) (number : Nat) (c : Call) : Hub :=
  let h := h.abortTask number c
  (match c.body with
    | some body => h.dropBody body
    | none => h).setCall number { c with task := none, body := none }

/-- Does what a user of a call wants, to which the call has no objection. -/
def applyCall (h : Hub) (number : Nat) (c : Call) : CallAction → Result × Hub
  | .acquire tunnel role => h.startAcquire number c tunnel role
  | .readSome =>
    h.withHeld c.readerHold fun tunnel t =>
      h.assign number c (.readSome tunnel (Stream.deadline h.clock t))
  | .readInstruction =>
    h.withHeld c.readerHold fun tunnel _ => h.assign number c (.readInstruction tunnel)
  | .available =>
    h.withHeld c.readerHold fun tunnel t =>
      let (answer, t) := t.available
      (h.setTunnel tunnel t).tell number c (.available answer)
  | .writeAll bytes =>
    h.withHeld c.writerHold fun tunnel _ => h.assign number c (.write tunnel bytes false)
  | .writeInstruction instruction =>
    h.withHeld c.writerHold fun tunnel _ =>
      h.assign number c (.write tunnel instruction.encode true)
  | .flush => h.withHeld c.writerHold fun tunnel _ => h.assign number c (.flush tunnel)
  | .shutdown =>
    h.withHeld c.writerHold fun tunnel _ => h.assign number c (.shutdown tunnel)
  | .close tunnel => h.startClose number c tunnel
  | .sweep timeout => h.startSweep number c timeout
  | .keepSweeping interval timeout => h.startSweeper number c interval timeout
  | .stopSweeping => (.nothing, h.stopSweepers number c)
  | .request r => (.nothing, h.startRequest number c r)
  | .upload parts last =>
    (.nothing,
      if c.upload.isOpen then
        h.setCall number
          { c with upload := { parts := c.upload.parts ++ parts, isOpen := !last } }
      else h)
  | .pull =>
    if c.body.isSome then h.assign number c (.readBody .oneChunk)
    else (.refused .noBody, h)
  | .abort => (.nothing, h.abortTask number c)
  | .release => (.nothing, h.releaseAll number c)
  | .drop => (.nothing, h.dropClient number c)

/-- Does something to a hub. -/
def apply (h : Hub) : Action → Result × Hub
  | .open identity idleTimeout manner arrivals =>
    (.number h.tunnels.length,
      { h with
        tunnels := h.tunnels ++
          [{ identity, reader := ({ idleTimeout } : Reader).feed arrivals, sink := { manner } }] })
  | .feed tunnel arrivals =>
    (.nothing,
      { h with
        tunnels := h.tunnels.modify tunnel fun t =>
          { t with reader := t.reader.feed arrivals } })
  | .setManner tunnel manner =>
    (.nothing,
      { h with
        tunnels := h.tunnels.modify tunnel fun t =>
          { t with sink := { t.sink with manner } } })
  | .describe tunnel shownAs =>
    match h.tunnels[tunnel]? with
    | some t => (.text (t.describe shownAs), h)
    | none => (.nothing, h)
  | .put identity tunnel =>
    (.nothing,
      if tunnel < h.tunnels.length then
        { h with registry := h.registry.put identity tunnel h.now }
      else h)
  | .get identity =>
    let (found, registry) := h.registry.get identity h.now
    (.found found, { h with registry })
  | .remove identity =>
    let (found, registry) := h.registry.remove identity
    (.found found, { h with registry })
  | .advance time => (.nothing, { h with clock := h.clock + time, now := h.now + time })
  | .call name action =>
    let (number, h) := h.withCall name
    match h.calls[number]? with
    | none => (.nothing, h)
    | some c =>
      match c.objection? action with
      | some objection => (.refused objection, h)
      | none => h.applyCall number c action

/-- What is to be seen of a tunnel after an action. -/
structure TunnelView where
  isOpen : Bool
  isInUse : Bool
  hasQueuedReader : Bool
  /-- What the sink has taken since the action. -/
  written : List UInt8
  flushes : Nat
  shutdowns : Nat
  deriving DecidableEq, Repr

/-- What is to be seen of a call: its news, and whether it is still running. -/
structure CallView where
  name : String
  events : List Event
  isRunning : Bool
  deriving DecidableEq, Repr

/-- What is to be seen of a hub after an action. -/
structure View where
  result : Result
  /-- The calls that have news or are running. -/
  calls : List CallView
  tunnels : List TunnelView
  registry : Registry
  deriving DecidableEq, Repr

/-- What is to be seen of a tunnel whose sink had taken so many bytes before. -/
def viewTunnel (t : Tunnel) (before : Nat) : TunnelView where
  isOpen := t.isOpen
  isInUse := t.isInUse
  hasQueuedReader := t.hasQueuedReader
  written := t.sink.accepted.drop before
  flushes := t.sink.flushes
  shutdowns := t.sink.shutdowns

def viewCall (c : Call) : CallView where
  name := c.name
  events := c.events
  isRunning := c.isBusy

/-- What is to be seen of a hub that came from `before`. -/
def view (before h : Hub) (result : Result) : View where
  result := result
  calls := (h.calls.map viewCall).filter fun c => !c.events.isEmpty || c.isRunning
  tunnels := h.tunnels.mapIdx fun number t =>
    viewTunnel t ((before.tunnels[number]?.map (·.sink.accepted.length)).getD 0)
  registry := h.registry

/-- The hub with no news for anybody. -/
def withoutNews (h : Hub) : Hub :=
  { h with calls := h.calls.map ({ · with events := [] }) }

/-- Does something to a hub and lets it settle. -/
def play (h : Hub) (action : Action) : View × Hub :=
  let (result, after) := h.withoutNews.apply action
  let after := after.settle
  (view h after result, after)

end Hub

end LongPollTunnel

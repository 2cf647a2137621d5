import LongPollTunnel.Connection.Settings
import LongPollTunnel.Tunnel.Reader
import LongPollTunnel.Tunnel.Writer

/-! # The handshake with the daemon

The client selects a protocol, the daemon asks for arguments, the client describes its
display and answers each name, and the daemon reports the connection that it opened.
Each turn waits for the one before. What the daemon sends after its last turn stays with
the reader.
-/

namespace LongPollTunnel

/-- The two ends of a connection to the daemon. -/
structure Link where
  reader : Reader := {}
  sink : Sink := {}
  deriving DecidableEq, Repr, Inhabited

/-- A part of the exchange with the daemon. -/
def Dialogue (α : Type) : Type :=
  Link → Outcome Refusal α × Link

namespace Dialogue

/-- Goes on with what a part gives, unless that part fails or has to wait. -/
def andThen {α β : Type} (first : Dialogue α) (next : α → Dialogue β) : Dialogue β :=
  fun link =>
    match first link with
    | (.done value, link) => next value link
    | (.failed refusal, link) => (.failed refusal, link)
    | (.waiting, link) => (.waiting, link)

/-- Gives a value without any exchange. -/
def give {α : Type} (value : α) : Dialogue α :=
  fun link => (.done value, link)

/-- Sends an instruction and flushes it. -/
def send (instruction : Instruction) : Dialogue Unit := fun link =>
  match link.sink.put false instruction.encode with
  | (.failed failure, sink) => (.failed (.tunnel failure), { link with sink })
  | (.waiting _, sink) => (.waiting, { link with sink })
  | (.done, sink) =>
    match sink.flushOut? with
    | some (.ok _, sink) => (.done (), { link with sink })
    | some (.error failure, sink) => (.failed (.tunnel failure), { link with sink })
    | none => (.waiting, { link with sink })

/-- Sends instructions one after the other. -/
def sendAll : List Instruction → Dialogue Unit
  | [] => give ()
  | instruction :: rest => (send instruction).andThen fun _ => sendAll rest

/-- Receives one instruction. -/
def receive : Dialogue Instruction := fun link =>
  match link.reader.readInstruction false with
  | (.done instruction, reader) => (.done instruction, { link with reader })
  | (.failed failure, reader) => (.failed (.tunnel failure), { link with reader })
  | (.waiting, reader) => (.waiting, { link with reader })

/-- The status that an error instruction names in its second argument. -/
def errorStatus (args : List String) : Status :=
  match args[1]? with
  | none => .serverError
  | some code =>
    match Unsigned.read Unsigned.max16 code.toList with
    | .ok code => (Status.ofCode? code).getD .serverError
    | .error _ => .serverError

/-- Checks an instruction against the opcode whose turn it is. -/
def accept (expected : String) (instruction : Instruction) : Except Refusal Instruction :=
  if instruction.opcode = "error" then
    .error (.daemon (errorStatus instruction.args) (instruction.args.headD ""))
  else if instruction.opcode ≠ expected then
    .error (.unexpectedInstruction expected instruction.opcode)
  else .ok instruction

/-- Receives the instruction whose turn it is. -/
def expect (expected : String) : Dialogue Instruction :=
  receive.andThen fun instruction link =>
    match accept expected instruction with
    | .ok instruction => (.done instruction, link)
    | .error refusal => (.failed refusal, link)

end Dialogue

/-- The handshake; it gives the id of the connection that the daemon opened. -/
def handshake (settings : Settings) : Dialogue String :=
  (Dialogue.send settings.selectInstruction).andThen fun _ =>
  (Dialogue.expect "args").andThen fun args =>
  (Dialogue.sendAll (settings.answers args.args)).andThen fun _ =>
  (Dialogue.expect "ready").andThen fun ready =>
  Dialogue.give (ready.args.headD "")

end LongPollTunnel

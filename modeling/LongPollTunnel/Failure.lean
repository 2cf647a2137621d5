import LongPollTunnel.Instruction.Basic
import LongPollTunnel.Status

/-! # Failures of a tunnel

A failure is classed by how a response has to treat it: only faults of the client show
their text outside.
-/

namespace LongPollTunnel

/-- What kind of thing failed. -/
inductive Failure.Kind where
  /-- The request itself was malformed. -/
  | client
  /-- The addressed tunnel does not exist or could not be created. -/
  | notFound
  /-- The source of instructions ended in good order, or the tunnel was closed. -/
  | closed
  /-- Something inside failed. -/
  | server
  /-- The response could not be delivered. -/
  | delivery
  deriving DecidableEq, Repr

/-- A failure with the text that describes it. -/
structure Failure where
  kind : Failure.Kind
  message : String
  deriving DecidableEq, Repr

namespace Failure

/-- The protocol status of a failure. -/
def Kind.status : Kind → Status
  | .client => .clientBadRequest
  | .notFound => .resourceNotFound
  | .closed => .resourceClosed
  | .server | .delivery => .serverError

def status (f : Failure) : Status :=
  f.kind.status

/-- The client caused the failure, so its text may be shown to it. -/
def isClientFault (f : Failure) : Bool :=
  f.kind = .client || f.kind = .notFound

def isClosed (f : Failure) : Bool :=
  f.kind = .closed

/-- Bytes that are no instruction are a failure inside. -/
def ofFault (fault : Instruction.Fault) : Failure :=
  ⟨.server, fault.message⟩

def tunnelClosed : Failure :=
  ⟨.closed, "Tunnel closed."⟩

def streamEnded : Failure :=
  ⟨.closed, "End of stream reached."⟩

def streamTruncated : Failure :=
  ⟨.server, "End of stream reached within an instruction."⟩

/-- A complete instruction was announced but is not in the buffer. -/
def instructionMissing : Failure :=
  ⟨.server, "Buffered instruction disappeared while parsing."⟩

def reading (reason : String) : Failure :=
  ⟨.server, "Error reading from tunnel: " ++ reason⟩

def writing (reason : String) : Failure :=
  ⟨.server, "Error writing to tunnel: " ++ reason⟩

def flushing (reason : String) : Failure :=
  ⟨.server, "Error flushing tunnel: " ++ reason⟩

def shuttingDown (reason : String) : Failure :=
  ⟨.server, "Error closing tunnel: " ++ reason⟩

def clientGone : Failure :=
  ⟨.delivery, "Client disconnected from HTTP tunnel."⟩

def bodyUnreadable (reason : String) : Failure :=
  ⟨.server, "I/O error reading tunnel request body: " ++ reason⟩

def relaying (cause : Failure) : Failure :=
  ⟨.server, "I/O error writing to tunnel: " ++ cause.message⟩

def noQuery : Failure :=
  ⟨.client, "No query string provided."⟩

def invalidOperation (query : String) : Failure :=
  ⟨.client, "Invalid tunnel operation: " ++ query⟩

def notCreated : Failure :=
  ⟨.notFound, "No tunnel created."⟩

def noSuchTunnel : Failure :=
  ⟨.notFound, "No such tunnel."⟩

end Failure

end LongPollTunnel

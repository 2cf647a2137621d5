import LongPollTunnel.Failure

/-! # Why no connection came about -/

namespace LongPollTunnel

/-- Why a connection to the daemon was not opened. -/
inductive Refusal where
  | form (reason : String)
  | invalidParameter (name value : String)
  | bodyTooLarge
  | bodyUnreadable (reason : String)
  | missingProtocol
  | network (reason : String)
  | timeout
  | tunnel (failure : Failure)
  /-- The daemon answered with an error. -/
  | daemon (status : Status) (message : String)
  | unexpectedInstruction (expected actual : String)
  deriving DecidableEq, Repr

namespace Refusal

def message : Refusal → String
  | form reason => "Invalid connect parameters: " ++ reason
  | invalidParameter name value =>
    "Invalid value \"" ++ value ++ "\" for connect parameter \"" ++ name ++ "\""
  | bodyTooLarge => "Connect request body is too large"
  | bodyUnreadable reason => "Failed to read connect request body: " ++ reason
  | missingProtocol => "Neither a protocol nor a connection id was given"
  | network reason => reason
  | timeout => "Timed out connecting to guacd"
  | tunnel failure => failure.message
  | daemon status message =>
    "guacd refused the connection: " ++ message ++ " (" ++ status.describe ++ ")"
  | unexpectedInstruction expected actual =>
    "Expected \"" ++ expected ++ "\" instruction from guacd, received \"" ++ actual ++ "\""

/-- A failure of the tunnel stays what it is. Of the others, those in the form are the
client's fault. -/
def toFailure (r : Refusal) : Failure :=
  match r with
  | tunnel failure => failure
  | form _ | invalidParameter _ _ | bodyTooLarge | missingProtocol => ⟨.client, r.message⟩
  | bodyUnreadable _ | network _ | timeout | daemon _ _ | unexpectedInstruction _ _ =>
    ⟨.server, r.message⟩

end Refusal

end LongPollTunnel

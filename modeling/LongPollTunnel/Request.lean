import LongPollTunnel.Failure
import LongPollTunnel.Tunnel.Identity

/-! # Requests

The query string of a request selects what it does: make a tunnel, or read from or
write to the one whose identity follows the name of the operation. What follows the
identity is of no account.
-/

namespace LongPollTunnel

/-- Why the body of a request could not be read. -/
inductive BodyFault where
  | overflow
  | encoding
  | unknownLength
  /-- The body ended too early, for this cause if one is known. -/
  | incomplete (cause : String := "None")
  /-- The connection failed, which it tells in its own words. -/
  | connection (reason : String)
  deriving DecidableEq, Repr

def BodyFault.message : BodyFault → String
  | .overflow => "payload reached size limit"
  | .encoding => "can not decode content-encoding"
  | .unknownLength => "payload length is unknown"
  | .incomplete cause => "payload reached EOF before completing: " ++ cause
  | .connection reason => reason

/-- What a request body gives at a time. -/
inductive BodyPart where
  | chunk (bytes : List UInt8)
  | broken (fault : BodyFault)
  deriving DecidableEq, Repr

/-- The body of a request: the parts that have come and were not used yet, and whether
more may come. -/
structure Upload where
  parts : List BodyPart := []
  isOpen : Bool := false
  deriving DecidableEq, Repr, Inhabited

/-- What a request asks for. -/
inductive Operation where
  | connect
  | read (identity : String)
  | write (identity : String)
  deriving DecidableEq, Repr

namespace Operation

def connectQuery : String := "connect"

def readPrefix : String := "read:"

def writePrefix : String := "write:"

/-- The characters that take exactly `size` bytes, if characters end there. -/
def takeBytes? : Nat → List Char → Option (List Char)
  | 0, _ => some []
  | _ + 1, [] => none
  | size + 1, c :: rest =>
    if c.utf8Size ≤ size + 1 then (takeBytes? (size + 1 - c.utf8Size) rest).map (c :: ·)
    else none

/-- The identity at the front of a text. If no character ends where an identity would,
it is the whole text. -/
def identityOf (text : List Char) : String :=
  String.ofList ((takeBytes? Identity.textLength text).getD text)

/-- What follows a prefix. -/
def afterPrefix? (start : String) (text : List Char) : Option (List Char) :=
  if start.toList.isPrefixOf text then some (text.drop start.toList.length) else none

/-- The operation that a query string selects. -/
def ofQuery (query : String) : Except Failure Operation :=
  if query = "" then .error .noQuery
  else if query = connectQuery then .ok .connect
  else
    match afterPrefix? readPrefix query.toList with
    | some rest => .ok (.read (identityOf rest))
    | none =>
      match afterPrefix? writePrefix query.toList with
      | some rest => .ok (.write (identityOf rest))
      | none => .error (.invalidOperation query)

end Operation

end LongPollTunnel

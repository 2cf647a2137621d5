import LongPollTunnel.Failure

/-! # Heads of responses

A response that reports a failure carries the protocol status and a text. Only a fault
of the client is told in its own words, made safe for a header; anything else is an
internal error to the outside.
-/

namespace LongPollTunnel

/-- The status line and headers of a response. -/
structure Head where
  status : Nat
  headers : List (String × String)
  /-- The body is a stream of unknown length. -/
  streaming : Bool := false
  deriving DecidableEq, Repr

namespace Head

def cacheControl : String × String :=
  ("cache-control", "no-cache")

def octets : String × String :=
  ("content-type", "application/octet-stream")

/-- The header that carries the code of a status. -/
def statusCodeHeader : String := "Guacamole-Status-Code"

/-- The header that carries the text of a failure. -/
def errorMessageHeader : String := "Guacamole-Error-Message"

/-- What the outside is told of any failure that is not the client's. -/
def internalMessage : String := "Internal server error."

/-- Printable ASCII characters and the space may stand in a header. -/
def isHeaderSafe (c : Char) : Bool :=
  decide (0x20 ≤ c.toNat ∧ c.toNat ≤ 0x7E)

/-- A text with a question mark for each character that may not stand in a header. -/
def headerSafe (text : String) : String :=
  String.ofList (text.toList.map fun c => if isHeaderSafe c then c else '?')

/-- What the outside is told of a failure. -/
def publicMessage (f : Failure) : String :=
  if f.isClientFault then headerSafe f.message else internalMessage

/-- Reports a failure. -/
def ofFailure (f : Failure) : Head where
  status := f.status.http
  headers :=
    [cacheControl, (statusCodeHeader, f.status.code.repr),
      (errorMessageHeader, publicMessage f)]

/-- Answers a request that made a tunnel. -/
def created : Head where
  status := 200
  headers := [cacheControl]

/-- Answers a request that reads from a tunnel. -/
def reading : Head where
  status := 200
  headers := [octets, cacheControl]
  streaming := true

/-- Answers a request that has written to a tunnel. -/
def written : Head where
  status := 200
  headers := [octets, cacheControl, ("content-length", "0")]

end Head

end LongPollTunnel

import LongPollTunnel.Text.Hex

/-! # Protocol statuses

A status has a number in the protocol and an HTTP status that a response with it bears.
-/

namespace LongPollTunnel

/-- How a request or an instruction of the protocol turned out. -/
inductive Status where
  | success
  | unsupported
  | serverError
  | serverBusy
  | remoteTimeout
  | remoteError
  | resourceNotFound
  | resourceConflict
  | resourceClosed
  | remoteNotFound
  | remoteUnavailable
  | sessionConflict
  | sessionTimeout
  | sessionClosed
  | clientBadRequest
  | clientUnauthorized
  | clientForbidden
  | clientTimeout
  | clientOverrun
  | clientBadType
  | clientTooMany
  deriving DecidableEq, Repr

namespace Status

/-- Every status, by rising code. -/
def all : List Status :=
  [success, unsupported, serverError, serverBusy, remoteTimeout, remoteError,
    resourceNotFound, resourceConflict, resourceClosed, remoteNotFound,
    remoteUnavailable, sessionConflict, sessionTimeout, sessionClosed,
    clientBadRequest, clientUnauthorized, clientForbidden, clientTimeout,
    clientOverrun, clientBadType, clientTooMany]

/-- The number of a status in the protocol. -/
def code : Status → Nat
  | success => 0x0000
  | unsupported => 0x0100
  | serverError => 0x0200
  | serverBusy => 0x0201
  | remoteTimeout => 0x0202
  | remoteError => 0x0203
  | resourceNotFound => 0x0204
  | resourceConflict => 0x0205
  | resourceClosed => 0x0206
  | remoteNotFound => 0x0207
  | remoteUnavailable => 0x0208
  | sessionConflict => 0x0209
  | sessionTimeout => 0x020A
  | sessionClosed => 0x020B
  | clientBadRequest => 0x0300
  | clientUnauthorized => 0x0301
  | clientForbidden => 0x0303
  | clientTimeout => 0x0308
  | clientOverrun => 0x030D
  | clientBadType => 0x030F
  | clientTooMany => 0x031D

/-- The HTTP status of a response with this status. -/
def http : Status → Nat
  | success => 200
  | unsupported => 501
  | serverError => 500
  | serverBusy => 503
  | remoteTimeout => 504
  | remoteError | remoteNotFound | remoteUnavailable => 502
  | resourceNotFound | resourceClosed | sessionClosed => 404
  | resourceConflict | sessionConflict => 409
  | sessionTimeout | clientTimeout => 408
  | clientBadRequest => 400
  | clientUnauthorized | clientForbidden => 403
  | clientOverrun => 413
  | clientBadType => 415
  | clientTooMany => 429

/-- The status with the given code. -/
def ofCode? (code : Nat) : Option Status :=
  all.find? fun status => status.code = code

def name : Status → String
  | success => "Success"
  | unsupported => "Unsupported"
  | serverError => "ServerError"
  | serverBusy => "ServerBusy"
  | remoteTimeout => "UpstreamTimeout"
  | remoteError => "UpstreamError"
  | resourceNotFound => "ResourceNotFound"
  | resourceConflict => "ResourceConflict"
  | resourceClosed => "ResourceClosed"
  | remoteNotFound => "UpstreamNotFound"
  | remoteUnavailable => "UpstreamUnavailable"
  | sessionConflict => "SessionConflict"
  | sessionTimeout => "SessionTimeout"
  | sessionClosed => "SessionClosed"
  | clientBadRequest => "ClientBadRequest"
  | clientUnauthorized => "ClientUnauthorized"
  | clientForbidden => "ClientForbidden"
  | clientTimeout => "ClientTimeout"
  | clientOverrun => "ClientOverrun"
  | clientBadType => "ClientBadType"
  | clientTooMany => "ClientTooMany"

/-- A number below 65536 in four hexadecimal digits. -/
def hex4 (n : Nat) : List Char :=
  [Hex.upper (n / 4096 % 16), Hex.upper (n / 256 % 16), Hex.upper (n / 16 % 16),
    Hex.upper (n % 16)]

/-- The name of a status followed by its code. -/
def describe (status : Status) : String :=
  status.name ++ " (0x" ++ String.ofList (hex4 status.code) ++ ")"

end Status

end LongPollTunnel

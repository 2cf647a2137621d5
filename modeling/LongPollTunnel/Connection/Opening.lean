import LongPollTunnel.Configuration
import LongPollTunnel.Connection.Handshake
import LongPollTunnel.Request
import LongPollTunnel.Tunnel.Basic

/-! # Opening a connection

A request body gives the settings, the network a link to the daemon, and the handshake
makes the link a tunnel. The daemon hears nothing of a request whose settings are no
good, and all of the exchange has to fit in the time to connect.
-/

namespace LongPollTunnel

/-- The daemon's end of a connection, as far as it has shown: what it has sent, as
single reads take it, and how it takes what is written to it. -/
structure Peer where
  sends : List Arrival := []
  manner : Sink.Manner := {}
  deriving DecidableEq, Repr, Inhabited

namespace Peer

/-- A link over which nothing was said yet. -/
def link (p : Peer) : Link where
  reader := { source := p.sends }
  sink := { manner := p.manner }

/-- Later a peer may have sent more, and may have shown what it does where it made its writer
wait. -/
structure Grows (early late : Peer) : Prop where
  sends : early.sends <+: late.sends
  manner : early.manner.Unfolds late.manner

end Peer

/-- What has come of dialing an address. -/
inductive Dial where
  | connected (peer : Peer)
  | failed (reason : String)
  /-- Nobody has answered. -/
  | unanswered
  deriving DecidableEq, Repr

/-- What may come later of dialing an address of which this has come. -/
inductive Dial.Grows : Dial → Dial → Prop where
  | connected {early late : Peer} (hpeer : early.Grows late) :
      Grows (.connected early) (.connected late)
  | failed {reason : String} : Grows (.failed reason) (.failed reason)
  | unanswered {late : Dial} : Grows .unanswered late

/-- A network, by what has come of dialing a host and a number there after so many
milliseconds. -/
structure Network where
  dial : String → Nat → Nat → Dial
  grows : ∀ host number early late, early ≤ late →
    (dial host number early).Grows (dial host number late)

/-- The network of a machine that has none. -/
def Network.unreachable : Network where
  dial _ _ _ := .failed "Network is unreachable (os error 101)"
  grows _ _ _ _ _ := .failed

namespace Connection

/-- Most bytes that a request body with settings may have. -/
def maxBodySize : Nat := 65536

/-- Collects a request body after the part in `seen`, which is in reverse order and has
`size` bytes. -/
def collectFrom (size : Nat) (seen : List (List UInt8)) :
    List BodyPart → Except Refusal (List UInt8)
  | [] => .ok seen.reverse.flatten
  | .broken fault :: _ => .error (.bodyUnreadable fault.message)
  | .chunk bytes :: rest =>
    if maxBodySize < size + bytes.length then .error .bodyTooLarge
    else collectFrom (size + bytes.length) (bytes :: seen) rest

/-- The settings in a request body. -/
def readSettings (body : List BodyPart) : Except Refusal Settings :=
  match collectFrom 0 [] body with
  | .ok bytes => Settings.ofForm bytes
  | .error refusal => .error refusal

/-- What came of a request for a connection, with the link to the daemon if there was
one. -/
inductive Attempt where
  /-- The daemon opened this connection. -/
  | opened (connection : String) (link : Link)
  | refused (refusal : Refusal) (link : Option Link)
  deriving DecidableEq, Repr

namespace Attempt

/-- What comes of a handshake, if it is over. -/
def ofHandshake? : Outcome Refusal String × Link → Option Attempt
  | (.done connection, link) => some (.opened connection link)
  | (.failed refusal, link) => some (.refused refusal (some link))
  | (.waiting, _) => none

/-- What the daemon has received. -/
def received : Attempt → List UInt8
  | .opened _ link => link.sink.accepted
  | .refused _ (some link) => link.sink.accepted
  | .refused _ none => []

end Attempt

/-- What has come of dialing the daemon and of the handshake with it after so many
milliseconds, if all of it is over. -/
def attemptAt (c : Configuration) (network : Network) (settings : Settings)
    (milliseconds : Nat) : Option Attempt :=
  match network.dial c.daemonHost c.daemonPort milliseconds with
  | .failed reason => some (.refused (.network reason) none)
  | .unanswered => none
  | .connected peer => Attempt.ofHandshake? (handshake settings peer.link)

/-- The link to the daemon when time is up, as far as the handshake has come. -/
def linkInTheEnd (c : Configuration) (network : Network) (settings : Settings) :
    Option Link :=
  match network.dial c.daemonHost c.daemonPort c.connectTimeout with
  | .failed _ | .unanswered => none
  | .connected peer => some (handshake settings peer.link).2

/-- What there is first from a time on, or within `count` milliseconds after it. -/
def firstFrom {α : Type} (standing : Nat → Option α) (time : Nat) : Nat → Option α
  | 0 => standing time
  | count + 1 =>
    match standing time with
    | some value => some value
    | none => firstFrom standing (time + 1) count

/-- Dials the daemon and goes through the handshake, in the time to connect. -/
def establish (c : Configuration) (network : Network) (settings : Settings) : Attempt :=
  match firstFrom (attemptAt c network settings) 0 c.connectTimeout with
  | some attempt => attempt
  | none => .refused .timeout (linkInTheEnd c network settings)

/-- Does what a request body asks for. -/
def attempt (c : Configuration) (network : Network) (body : List BodyPart) : Attempt :=
  match readSettings body with
  | .error refusal => .refused refusal none
  | .ok settings => establish c network settings

/-- The tunnel over a link, whose reads wait as long as the configuration says. -/
def tunnelOver (c : Configuration) (identity : Identity) (link : Link) : Tunnel where
  identity := identity
  reader := { link.reader with idleTimeout := c.readTimeout }
  sink := link.sink

/-- Opens a tunnel for a request body. -/
def openTunnel (c : Configuration) (network : Network) (identity : Identity)
    (body : List BodyPart) : Except Failure Tunnel :=
  match attempt c network body with
  | .opened _ link => .ok (tunnelOver c identity link)
  | .refused refusal _ => .error refusal.toFailure

end Connection

end LongPollTunnel

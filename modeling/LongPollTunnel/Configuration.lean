import LongPollTunnel.Text.Unsigned

/-! # Configuration of the server

Every setting comes from a named variable and has a default. An argument gives the
port to listen on in place of its variable. Settings are read in a fixed order and the first
number that cannot be read is reported.
-/

namespace LongPollTunnel

/-- What the server runs with. Times are in milliseconds. -/
structure Configuration where
  listenPort : Nat := 8080
  bindAddress : String := "0.0.0.0"
  workers : Option Nat := none
  daemonHost : String := "127.0.0.1"
  daemonPort : Nat := 4822
  connectTimeout : Nat := 10000
  /-- How long a tunnel may stay unused before it is closed; `none` is for ever. -/
  idleTimeout : Option Nat := none
  /-- How long a read waits for instructions; `none` is for ever. -/
  readTimeout : Option Nat := none
  tunnelPath : String := "/tunnel"
  deriving DecidableEq, Repr, Inhabited

namespace Configuration

/-- A setting that is not a number in its range. -/
inductive Fault where
  | portArgument (value : String) (reason : Unsigned.Fault)
  | invalidNumber (name value : String) (reason : Unsigned.Fault)
  deriving DecidableEq, Repr

def Fault.message : Fault → String
  | .portArgument value reason =>
    "Invalid port argument \"" ++ value ++ "\": " ++ reason.message
  | .invalidNumber name value reason =>
    "Invalid value \"" ++ value ++ "\" for " ++ name ++ ": " ++ reason.message

/-- The log filter that is used where none is given. -/
def defaultLogFilter : String :=
  "guac_tunnel=info,guac_tunnel_server=info,actix_web=info"

/-- The variables that settings come from. -/
def variableNames : List String :=
  ["PORT", "BIND_ADDR", "ACTIX_WORKERS", "GUACD_HOST", "GUACD_PORT",
    "GUACD_CONNECT_TIMEOUT_SECS", "TUNNEL_IDLE_TIMEOUT_SECS", "TUNNEL_READ_TIMEOUT_MS",
    "TUNNEL_PATH"]

/-- The number that a variable holds, if it is set. -/
def number? (lookup : String → Option String) (name : String) (limit : Nat) :
    Except Fault (Option Nat) :=
  match lookup name with
  | none => .ok none
  | some value =>
    match Unsigned.read limit value.toList with
    | .ok number => .ok (some number)
    | .error reason => .error (.invalidNumber name value reason)

/-- The port to listen on: the argument, else the variable, else the default. -/
def readListenPort (lookup : String → Option String) (argument : Option String) :
    Except Fault Nat :=
  match argument with
  | some value =>
    match Unsigned.read Unsigned.max16 value.toList with
    | .ok number => .ok number
    | .error reason => .error (.portArgument value reason)
  | none => (number? lookup "PORT" Unsigned.max16).map (·.getD 8080)

/-- Reads the configuration from variables and the argument. -/
def read (lookup : String → Option String) (argument : Option String) :
    Except Fault Configuration := do
  let listenPort ← readListenPort lookup argument
  let workers ← number? lookup "ACTIX_WORKERS" Unsigned.max64
  let daemonPort ← number? lookup "GUACD_PORT" Unsigned.max16
  let connectSeconds ← number? lookup "GUACD_CONNECT_TIMEOUT_SECS" Unsigned.max64
  let idleSeconds ← number? lookup "TUNNEL_IDLE_TIMEOUT_SECS" Unsigned.max64
  let readTimeout ← number? lookup "TUNNEL_READ_TIMEOUT_MS" Unsigned.max64
  return {
    listenPort
    bindAddress := (lookup "BIND_ADDR").getD "0.0.0.0"
    workers
    daemonHost := (lookup "GUACD_HOST").getD "127.0.0.1"
    daemonPort := daemonPort.getD 4822
    connectTimeout := connectSeconds.getD 10 * 1000
    idleTimeout := idleSeconds.map (· * 1000)
    readTimeout
    tunnelPath := (lookup "TUNNEL_PATH").getD "/tunnel" }

/-- How often unused tunnels are looked for: twice per timeout, but at most once a
second. -/
def sweepInterval (c : Configuration) : Option Nat :=
  c.idleTimeout.map fun timeout => max (timeout / 2) 1000

/-- What is served where. -/
def summary (c : Configuration) : String :=
  "Serving Guacamole tunnel on " ++ c.bindAddress ++ ":" ++ c.listenPort.repr ++
    c.tunnelPath ++ " (guacd at " ++ c.daemonHost ++ ":" ++ c.daemonPort.repr ++ ")"

end Configuration

end LongPollTunnel

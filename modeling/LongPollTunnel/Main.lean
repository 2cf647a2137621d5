import LongPollTunnel.Configuration

/-! # The command line

Reads the configuration from the environment and the first argument, and tells what the
server would serve, or what is wrong with a setting.
-/

open LongPollTunnel

def main (arguments : List String) : IO UInt32 := do
  let values ← Configuration.variableNames.mapM fun name => do
    return (name, ← IO.getEnv name)
  match Configuration.read (fun name => (values.lookup name).join) arguments.head? with
  | .ok configuration =>
    IO.println configuration.summary
    return 0
  | .error fault =>
    IO.eprintln fault.message
    return 1

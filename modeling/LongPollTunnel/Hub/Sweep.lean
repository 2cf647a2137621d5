import LongPollTunnel.Registry

/-! # Sweeps

A sweep closes the tunnels that it took out of the registry one after the other. A
sweeper starts a sweep at once and then once in every interval, also for the intervals
that passed during a sweep that had to wait; asked to stop, it stops between sweeps.
-/

namespace LongPollTunnel

/-- A sweep that waits for a tunnel's close. -/
structure Sweep where
  /-- How many tunnels were taken out. -/
  count : Nat
  /-- The tunnel being closed, and the ticket for its writer's seat. -/
  tunnel : Nat
  ticket : Nat
  /-- The tunnels yet to close. -/
  rest : List Nat
  deriving DecidableEq, Repr

namespace Sweep

/-- A sweep that has come to its end, or waits. -/
inductive Progress where
  | done (count : Nat)
  | waiting (sweep : Sweep)
  deriving DecidableEq, Repr

/-- Closes tunnels in turn. A close that fails is no reason to stop. -/
def closeEach (count : Nat) : List Nat → List Tunnel → Progress × List Tunnel
  | [], tunnels => (.done count, tunnels)
  | number :: rest, tunnels =>
    match tunnels[number]? with
    | none => closeEach count rest tunnels
    | some t =>
      match t.close with
      | (.done _, t) => closeEach count rest (tunnels.set number t)
      | (.waiting ticket, t) =>
        (.waiting ⟨count, number, ticket, rest⟩, tunnels.set number t)

/-- Starts a sweep of everything that has been unused for `timeout`. -/
def start (registry : Registry) (tunnels : List Tunnel) (now timeout : Nat) :
    Progress × Registry × List Tunnel :=
  let (expired, registry) := registry.sweep tunnels now timeout
  let (progress, tunnels) := closeEach expired.length (expired.map (·.tunnel)) tunnels
  (progress, registry, tunnels)

/-- Goes on with a sweep, or `none` if its close still has to wait. -/
def resume (s : Sweep) (tunnels : List Tunnel) : Option (Progress × List Tunnel) :=
  match tunnels[s.tunnel]? with
  | none => none
  | some t =>
    match t.resumeClose s.ticket with
    | (.waiting _, _) => none
    | (.done _, t) => some (closeEach s.count s.rest (tunnels.set s.tunnel t))

end Sweep

/-- Sweeps again and again. -/
structure Sweeper where
  /-- The number of the call that started it. -/
  owner : Nat
  interval : Nat
  timeout : Nat
  /-- When the next sweep is due. -/
  due : Nat
  /-- The sweep in progress, if one has to wait. -/
  sweep : Option Sweep := none
  /-- It was asked to stop. -/
  isStopping : Bool := false
  hasStopped : Bool := false
  deriving DecidableEq, Repr

namespace Sweeper

/-- Keeps the sweep that has to wait. -/
def keep (s : Sweeper) : Sweep.Progress → Sweeper
  | .done _ => { s with sweep := none }
  | .waiting sweep => { s with sweep := some sweep }

/-- Goes on with the sweep in progress, stops if asked to, or sweeps if that is due;
`none` if there is nothing to do yet. -/
def step (clock now : Nat) (s : Sweeper) (registry : Registry) (tunnels : List Tunnel) :
    Option (Sweeper × Registry × List Tunnel) :=
  if s.hasStopped then none
  else
    match s.sweep with
    | some sweep =>
      (sweep.resume tunnels).map fun (progress, tunnels) =>
        (s.keep progress, registry, tunnels)
    | none =>
      if s.isStopping then some ({ s with hasStopped := true }, registry, tunnels)
      else if s.due ≤ clock then
        let (progress, registry, tunnels) := Sweep.start registry tunnels now s.timeout
        some ({ s with due := s.due + s.interval }.keep progress, registry, tunnels)
      else none

end Sweeper

end LongPollTunnel

import LongPollTunnel.Tunnel.Basic

/-! # The registry of tunnels

The registry finds tunnels by identity and knows when each was looked up last. A sweep
takes out what is closed or was unused for too long; a tunnel whose seat is held counts
as used now.
-/

namespace LongPollTunnel

/-- A registered tunnel, by its number. -/
structure Registry.Entry where
  identity : String
  tunnel : Nat
  lastUsed : Nat
  deriving DecidableEq, Repr

/-- The registered tunnels; no identity comes twice. -/
structure Registry where
  entries : List Registry.Entry := []
  deriving DecidableEq, Repr, Inhabited

namespace Registry

def size (r : Registry) : Nat :=
  r.entries.length

def isEmpty (r : Registry) : Bool :=
  r.entries.isEmpty

/-- The number of the tunnel with an identity. -/
def find? (r : Registry) (identity : String) : Option Nat :=
  (r.entries.find? (·.identity = identity)).map (·.tunnel)

/-- Takes an identity out. -/
def erase (r : Registry) (identity : String) : Registry :=
  ⟨r.entries.filter (·.identity ≠ identity)⟩

/-- Registers a tunnel; one with the same identity is replaced. -/
def put (r : Registry) (identity : String) (tunnel now : Nat) : Registry :=
  ⟨(r.erase identity).entries ++ [⟨identity, tunnel, now⟩]⟩

/-- Marks an identity as used. -/
def touch (r : Registry) (identity : String) (now : Nat) : Registry :=
  ⟨r.entries.map fun e => if e.identity = identity then { e with lastUsed := now } else e⟩

/-- Looks an identity up and marks it as used. -/
def get (r : Registry) (identity : String) (now : Nat) : Option Nat × Registry :=
  (r.find? identity, r.touch identity now)

/-- Takes an identity out; only the caller that did so gets the tunnel. -/
def remove (r : Registry) (identity : String) : Option Nat × Registry :=
  (r.find? identity, r.erase identity)

theorem find?_erase_self (r : Registry) (identity : String) :
    (r.erase identity).find? identity = none := by
  simp [find?, erase, List.find?_filter]

theorem find?_put_self (r : Registry) (identity : String) (tunnel now : Nat) :
    (r.put identity tunnel now).find? identity = some tunnel := by
  have hnone := r.find?_erase_self identity
  simp only [find?, Option.map_eq_none_iff] at hnone
  simp [find?, put, List.find?_append, hnone]

/-- What a sweep does with an entry. -/
inductive Verdict where
  | expire
  | refresh
  | keep
  deriving DecidableEq, Repr

/-- A closed tunnel goes; one in use is marked as used; any other goes once it is
`timeout` old. -/
def judge (tunnels : List Tunnel) (now timeout : Nat) (e : Entry) : Verdict :=
  match tunnels[e.tunnel]? with
  | none => .keep
  | some t =>
    if !t.isOpen then .expire
    else if t.isInUse then .refresh
    else if timeout ≤ now - e.lastUsed then .expire
    else .keep

/-- The entries that a sweep takes out, and what stays. -/
def sweep (r : Registry) (tunnels : List Tunnel) (now timeout : Nat) :
    List Entry × Registry :=
  let verdict := judge tunnels now timeout
  (r.entries.filter (verdict · = .expire),
    ⟨(r.entries.filter (verdict · ≠ .expire)).map fun e =>
      if verdict e = .refresh then { e with lastUsed := now } else e⟩)

/-- Takes a failed tunnel out, if it is still there, and closes it. What was taken out comes
first. -/
def teardown (r : Registry) (t : Tunnel) : Option Nat × Tunnel.Closing × Registry × Tunnel :=
  let (found, registry) := r.remove t.identity.text
  let (closing, tunnel) := t.close
  (found, closing, registry, tunnel)

end Registry

end LongPollTunnel

import Mathlib.Data.List.Perm.Basic
import LongPollTunnel.Hub.Basic
import LongPollTunnel.Proofs.Seats
import LongPollTunnel.Proofs.Tunnels

/-! # Tickets and who has them

A claim is a ticket of somebody. The claims of a hub's agents are exactly the tickets that
its seats know, each of them once, and whoever acts as the holder of a seat is the one
that is served. Main statement: drawing, leaving and closing keep this.
-/

namespace LongPollTunnel

/-- A ticket for a seat of a tunnel. -/
structure Claim where
  role : Role
  tunnel : Nat
  ticket : Nat
  deriving DecidableEq

def Hold.claim (hold : Hold) (role : Role) : Claim :=
  ⟨role, hold.tunnel, hold.ticket⟩

/-- The tickets that a close holds when it has to wait. -/
def Tunnel.Closing.claims (number : Nat) : Tunnel.Closing → List Claim
  | .done _ => []
  | .waiting ticket => [⟨.writer, number, ticket⟩]

/-- The ticket of the close that a sweep waits for. -/
def Sweep.claim (s : Sweep) : Claim :=
  ⟨.writer, s.tunnel, s.ticket⟩

def Sweep.Progress.claims : Sweep.Progress → List Claim
  | .done _ => []
  | .waiting sweep => [sweep.claim]

namespace Handling

def role : Handling → Role
  | .awaitReader _ => .reader
  | .awaitWriter _ | .relaying _ _ | .closing _ _ => .writer

def ticket : Handling → Nat
  | .awaitReader ticket | .awaitWriter ticket | .relaying ticket _ | .closing _ ticket => ticket

/-- The handling goes on only as the holder of its seat. -/
def isHolding : Handling → Bool
  | .awaitReader _ | .awaitWriter _ => false
  | .relaying _ _ | .closing _ _ => true

/-- The ticket of a request for the tunnel with this number. -/
def claim (handling : Handling) (number : Nat) : Claim :=
  ⟨handling.role, number, handling.ticket⟩

/-- The tickets with which a request goes on. -/
def Progress.claims (number : Nat) : Progress → List Claim
  | .goOn handling => [handling.claim number]
  | .answer _ => []
  | .stream ticket => [⟨.reader, number, ticket⟩]

/-- Whoever drops a request gives its ticket back, and a request that still waited counts as
queued no more. -/
theorem abandon_eq (handling : Handling) (t : Tunnel) :
    handling.abandon t =
      (if handling.isHolding then t else t.unqueue handling.role).leave handling.role
        handling.ticket := by
  cases handling <;> rfl

end Handling

namespace Task

/-- The ticket that a task gives back if it is dropped. -/
def claim? : Task → Option Claim
  | .acquire role hold => some (hold.claim role)
  | .close hold => some (hold.claim .writer)
  | .sweep s => some s.claim
  | .handle tunnel handling _ => some (handling.claim tunnel)
  | .readSome _ _ | .readInstruction _ | .write _ _ _ | .flush _ | .shutdown _ | .watch _
  | .readBody _ => none

/-- The task goes on only as the holder of a seat. -/
def isHolding : Task → Bool
  | .close _ | .sweep _ => true
  | .handle _ handling _ => handling.isHolding
  | .acquire _ _ | .readSome _ _ | .readInstruction _ | .write _ _ _ | .flush _ | .shutdown _
  | .watch _ | .readBody _ => false

/-- The ticket that a task waits with. -/
def awaited? (task : Task) : Option Claim :=
  if task.isHolding then none else task.claim?

end Task

namespace Call

/-- The ticket of the running task. -/
def taskClaim? (c : Call) : Option Claim :=
  c.task.bind Task.claim?

/-- The ticket that a call waits with. -/
def awaited? (c : Call) : Option Claim :=
  c.task.bind Task.awaited?

/-- The tickets of the seats that a call has acquired. -/
def holds (c : Call) : List Claim :=
  (c.readerHold.map (·.claim .reader)).toList ++ (c.writerHold.map (·.claim .writer)).toList

def claims (c : Call) : List Claim :=
  c.taskClaim?.toList ++ c.holds

/-- The tickets under which a call acts as the holder of a seat. -/
def held (c : Call) : List Claim :=
  (if c.task.any Task.isHolding then c.taskClaim?.toList else []) ++ c.holds

end Call

namespace Stream

/-- A stream holds the reader's seat to its end, and the writer's while it closes the
tunnel. -/
def claims (s : Stream) : List Claim :=
  match s.phase with
  | .ended => []
  | .closing _ ticket => [⟨.reader, s.tunnel, s.ticket⟩, ⟨.writer, s.tunnel, ticket⟩]
  | .reading _ | .flushing _ => [⟨.reader, s.tunnel, s.ticket⟩]

end Stream

namespace Sweeper

def claims (s : Sweeper) : List Claim :=
  (s.sweep.map Sweep.claim).toList

end Sweeper

namespace Hub

/-- The tickets of all agents. -/
def claims (h : Hub) : List Claim :=
  h.calls.flatMap Call.claims ++ (h.streams.flatMap Stream.claims ++
    h.sweepers.flatMap Sweeper.claims)

/-- The tickets of those who act as holders. -/
def held (h : Hub) : List Claim :=
  h.calls.flatMap Call.held ++ (h.streams.flatMap Stream.claims ++
    h.sweepers.flatMap Sweeper.claims)

end Hub

/-! ## Claims against seats -/

/-- The tickets of a seat of the tunnel with a number. -/
def ticketsAt (tunnels : List Tunnel) (role : Role) (number : Nat) : List Nat :=
  match tunnels[number]? with
  | some t => (t.seat role).tickets
  | none => []

/-- The ticket is being served. -/
def Claim.IsServed (x : Claim) (tunnels : List Tunnel) : Prop :=
  ∃ t : Tunnel, tunnels[x.tunnel]? = some t ∧ (t.seat x.role).isServing x.ticket = true

/-- The claims are the tickets of the seats, and those who act as holders are served. -/
structure Seated (claims held : List Claim) (tunnels : List Tunnel) : Prop where
  ordered : ∀ (number : Nat) (t : Tunnel), tunnels[number]? = some t → ∀ role, (t.seat role).Ordered
  balanced : ∀ x : Claim, claims.count x = (ticketsAt tunnels x.role x.tunnel).count x.ticket
  held_subset : ∀ x ∈ held, x ∈ claims
  served : ∀ x ∈ held, x.IsServed tunnels

theorem getElem?_set_of_getElem? {α : Type} {l : List α} {i : Nat} {a b : α}
    (hget : l[i]? = some a) : (l.set i b)[i]? = some b := by
  rw [List.getElem?_set_self (List.getElem?_eq_some_iff.mp hget).1]

theorem modify_eq_set_of_getElem? {α : Type} {l : List α} {i : Nat} {a : α} (f : α → α)
    (hget : l[i]? = some a) : l.modify i f = l.set i (f a) := by
  ext1 j
  rw [List.getElem?_modify, List.getElem?_set]
  obtain ⟨hlt, rfl⟩ := List.getElem?_eq_some_iff.mp hget
  by_cases heq : i = j
  · subst heq
    simp [hlt]
  · simp [heq]

section

variable {tunnels : List Tunnel} {number : Nat} {t after : Tunnel}

theorem ticketsAt_eq (ht : tunnels[number]? = some t) (role : Role) :
    ticketsAt tunnels role number = (t.seat role).tickets := by
  simp [ticketsAt, ht]

theorem ticketsAt_set_self (ht : tunnels[number]? = some t) (role : Role) :
    ticketsAt (tunnels.set number after) role number = (after.seat role).tickets :=
  ticketsAt_eq (getElem?_set_of_getElem? ht) role

theorem ticketsAt_set_of_ne {other : Nat} (hne : other ≠ number) (role : Role) :
    ticketsAt (tunnels.set number after) role other = ticketsAt tunnels role other := by
  simp [ticketsAt, List.getElem?_set_ne (Ne.symm hne)]

/-- A claim is served as before if the seat that it is for goes on to serve it. -/
theorem Claim.IsServed.set {x : Claim} (hserved : x.IsServed tunnels)
    (ht : tunnels[number]? = some t)
    (hkeep : x.tunnel = number → (t.seat x.role).isServing x.ticket = true →
      (after.seat x.role).isServing x.ticket = true) :
    x.IsServed (tunnels.set number after) := by
  obtain ⟨found, hfound, hserving⟩ := hserved
  by_cases heq : x.tunnel = number
  · rw [heq, ht] at hfound
    cases hfound
    refine ⟨after, ?_, hkeep heq hserving⟩
    rw [heq]
    exact getElem?_set_of_getElem? ht
  · exact ⟨found, by rw [List.getElem?_set_ne (Ne.symm heq), hfound], hserving⟩

end

namespace Seated

variable {claims held : List Claim} {tunnels : List Tunnel} {number : Nat} {t : Tunnel}

theorem count_le_one (hseated : Seated claims held tunnels) (x : Claim) :
    claims.count x ≤ 1 := by
  rw [hseated.balanced, ticketsAt]
  split
  next t ht =>
    exact List.nodup_iff_count_le_one.mp (Seat.nodup_tickets (hseated.ordered _ t ht _)) _
  · simp

theorem nodup (hseated : Seated claims held tunnels) : claims.Nodup :=
  List.nodup_iff_count_le_one.mpr hseated.count_le_one

/-- Whoever acts as the holder of a seat has the ticket that is served. -/
theorem ticket_eq_of_isServing (hseated : Seated claims held tunnels) {x : Claim} (hx : x ∈ held)
    (ht : tunnels[x.tunnel]? = some t) {ticket : Nat}
    (hserving : (t.seat x.role).isServing ticket = true) : x.ticket = ticket := by
  obtain ⟨t', ht', hserved⟩ := hseated.served x hx
  rw [ht] at ht'
  cases ht'
  rw [Seat.isServing_iff] at hserving hserved
  exact Option.some.inj (hserved.symm.trans hserving)

/-- It matters neither in which order claims are told, nor that a holder ceases to act. -/
theorem congr (hseated : Seated claims held tunnels) {claims' held' : List Claim}
    (hclaims : claims'.Perm claims) (hheld : held' ⊆ held) : Seated claims' held' tunnels where
  ordered := hseated.ordered
  balanced := fun x => by rw [hclaims.count_eq, hseated.balanced]
  held_subset := fun x hx => hclaims.mem_iff.mpr (hseated.held_subset x (hheld hx))
  served := fun x hx => hseated.served x (hheld hx)

/-- What leaves the seats of a tunnel alone changes nothing. -/
theorem set (hseated : Seated claims held tunnels) (ht : tunnels[number]? = some t)
    {after : Tunnel} (hseat : ∀ role, after.seat role = t.seat role) :
    Seated claims held (tunnels.set number after) where
  ordered := by
    intro other found hfound role
    by_cases heq : number = other
    · subst heq
      rw [getElem?_set_of_getElem? ht] at hfound
      cases hfound
      rw [hseat]
      exact hseated.ordered number t ht role
    · rw [List.getElem?_set_ne heq] at hfound
      exact hseated.ordered other found hfound role
  balanced := by
    intro x
    rw [hseated.balanced]
    by_cases heq : x.tunnel = number
    · rw [heq, ticketsAt_set_self ht, hseat, ticketsAt_eq ht]
    · rw [ticketsAt_set_of_ne heq]
  held_subset := hseated.held_subset
  served := by
    intro x hx
    refine (hseated.served x hx).set ht ?_
    intro _ hserving
    rw [hseat]
    exact hserving

theorem modify (hseated : Seated claims held tunnels) (number : Nat) {f : Tunnel → Tunnel}
    (hf : ∀ t role, (f t).seat role = t.seat role) :
    Seated claims held (tunnels.modify number f) := by
  cases ht : tunnels[number]? with
  | none =>
      rw [List.modify_eq_self (List.getElem?_eq_none_iff.mp ht)]
      exact hseated
  | some t =>
      rw [modify_eq_set_of_getElem? _ ht]
      exact hseated.set ht (hf t)

/-- What a change of one seat has to keep for the others' sake. -/
theorem setSeat (hseated : Seated claims held tunnels) (ht : tunnels[number]? = some t)
    {claims' : List Claim} (role : Role) {seat : Seat} (hordered : seat.Ordered)
    (hself : ∀ ticket, claims'.count ⟨role, number, ticket⟩ = seat.tickets.count ticket)
    (hother : ∀ x : Claim, x.role ≠ role ∨ x.tunnel ≠ number → claims'.count x = claims.count x)
    (hheld : held ⊆ claims')
    (hserved : ∀ ticket, ⟨role, number, ticket⟩ ∈ held →
      (t.seat role).isServing ticket = true → seat.isServing ticket = true) :
    Seated claims' held (tunnels.set number (t.setSeat role seat)) where
  ordered := by
    intro other found hfound role'
    by_cases heq : number = other
    · subst heq
      rw [getElem?_set_of_getElem? ht] at hfound
      cases hfound
      by_cases hrole : role' = role
      · rw [hrole, Tunnel.seat_setSeat]
        exact hordered
      · rw [Tunnel.seat_setSeat_of_ne _ _ _ hrole]
        exact hseated.ordered number t ht role'
    · rw [List.getElem?_set_ne heq] at hfound
      exact hseated.ordered other found hfound role'
  balanced := by
    intro x
    obtain ⟨role', tunnel, ticket⟩ := x
    -- only the tickets of this role at this tunnel have changed
    by_cases htunnel : tunnel = number
    · subst htunnel
      rw [ticketsAt_set_self ht]
      by_cases hrole : role' = role
      · subst hrole
        rw [hself, Tunnel.seat_setSeat]
      · rw [hother _ (Or.inl hrole), hseated.balanced, Tunnel.seat_setSeat_of_ne _ _ _ hrole,
          ticketsAt_eq ht]
    · rw [hother _ (Or.inr htunnel), hseated.balanced, ticketsAt_set_of_ne htunnel]
  held_subset := fun x hx => hheld hx
  served := by
    intro x hx
    refine (hseated.served x hx).set ht ?_
    intro htunnel hserving
    by_cases hrole : x.role = role
    · obtain ⟨role', tunnel, ticket⟩ := x
      cases htunnel
      cases hrole
      rw [Tunnel.seat_setSeat]
      exact hserved ticket hx hserving
    · rw [Tunnel.seat_setSeat_of_ne _ _ _ hrole]
      exact hserving

/-- Whoever draws a ticket has a claim more. -/
theorem draw (hseated : Seated claims held tunnels) (ht : tunnels[number]? = some t)
    (role : Role) :
    Seated (⟨role, number, (t.seat role).next⟩ :: claims) held
      (tunnels.set number (t.draw role).2) := by
  have hordered := hseated.ordered number t ht role
  suffices hseat : Seated (⟨role, number, (t.seat role).next⟩ :: claims) held
      (tunnels.set number (t.setSeat role (t.seat role).draw.2)) by
    have hdrawn := hseat.set (getElem?_set_of_getElem? ht) (t.seat_snd_draw role)
    rw [List.set_set] at hdrawn
    exact hdrawn
  refine hseated.setSeat ht role hordered.draw ?_ ?_ ?_ ?_
  · intro ticket
    rw [Seat.tickets_draw hordered, List.count_append, List.count_cons, hseated.balanced,
      ticketsAt_eq ht, List.count_singleton]
    congr 1
    by_cases heq : (t.seat role).next = ticket
    · simp [heq]
    · simp [heq]
  · intro x hx
    refine List.count_cons_of_ne ?_
    rintro rfl
    rcases hx with hrole | htunnel
    · exact hrole rfl
    · exact htunnel rfl
  · intro x hx
    exact List.mem_cons_of_mem _ (hseated.held_subset x hx)
  · intro ticket _ hserving
    exact Seat.isServing_draw hserving

/-- Whoever is served may act as the holder. -/
theorem hold (hseated : Seated claims held tunnels) {x : Claim} (hx : x ∈ claims)
    (hserved : x.IsServed tunnels) : Seated claims (x :: held) tunnels where
  ordered := hseated.ordered
  balanced := hseated.balanced
  held_subset := by
    intro y hy
    rcases List.mem_cons.mp hy with rfl | hold
    · exact hx
    · exact hseated.held_subset y hold
  served := by
    intro y hy
    rcases List.mem_cons.mp hy with rfl | hold
    · exact hserved
    · exact hseated.served y hold

/-- Whoever gives a ticket back loses the claim; nobody else may act under it. -/
theorem leave {x : Claim} (hseated : Seated (x :: claims) held tunnels) (hheld : held ⊆ claims)
    (ht : tunnels[x.tunnel]? = some t) :
    Seated claims held (tunnels.set x.tunnel (t.leave x.role x.ticket)) := by
  have hordered := hseated.ordered x.tunnel t ht x.role
  have hnodup := List.nodup_cons.mp hseated.nodup
  refine hseated.setSeat ht x.role (hordered.leave x.ticket) ?_ ?_ hheld ?_
  · intro ticket
    have hbalanced := hseated.balanced ⟨x.role, x.tunnel, ticket⟩
    rw [List.count_cons, ticketsAt_eq ht] at hbalanced
    -- the claim and the ticket go together, and both were there once
    rw [Seat.tickets_leave, List.count_erase, ← hbalanced]
    by_cases heq : x.ticket = ticket
    · subst heq
      simp
    · have hne : x ≠ ⟨x.role, x.tunnel, ticket⟩ := by
        intro hx
        exact heq (congrArg Claim.ticket hx)
      simp [heq, hne]
  · intro y hy
    refine (List.count_cons_of_ne ?_).symm
    rintro rfl
    rcases hy with hrole | htunnel
    · exact hrole rfl
    · exact htunnel rfl
  · intro ticket hticket hserving
    refine Seat.isServing_leave_of_ne hserving ?_
    rintro rfl
    exact hnodup.1 (hheld hticket)

theorem exists_tunnel (hseated : Seated claims held tunnels) {x : Claim} (hx : x ∈ claims) :
    ∃ t : Tunnel, tunnels[x.tunnel]? = some t ∧ x.ticket ∈ (t.seat x.role).tickets := by
  have hcount := List.count_pos_iff.mpr hx
  rw [hseated.balanced, List.count_pos_iff, ticketsAt] at hcount
  split at hcount
  next t ht => exact ⟨t, ht, hcount⟩
  · cases hcount

theorem leave_modify {x : Claim} (hseated : Seated (x :: claims) held tunnels)
    (hheld : held ⊆ claims) :
    Seated claims held (tunnels.modify x.tunnel (·.leave x.role x.ticket)) := by
  obtain ⟨t, ht, _⟩ := hseated.exists_tunnel (List.mem_cons_self)
  rw [modify_eq_set_of_getElem? _ ht]
  exact hseated.leave hheld ht

/-! ## Closing -/

/-- A close that is done leaves nothing behind, and one that waits holds the writer's
seat. -/
theorem resumeClose {ticket : Nat}
    (hseated : Seated (⟨.writer, number, ticket⟩ :: claims) (⟨.writer, number, ticket⟩ :: held)
      tunnels)
    (hheld : held ⊆ claims) (ht : tunnels[number]? = some t) :
    Seated ((t.resumeClose ticket).1.claims number ++ claims)
      ((t.resumeClose ticket).1.claims number ++ held)
      (tunnels.set number (t.resumeClose ticket).2) := by
  cases hclose : t.resumeClose ticket with
  | mk closing after =>
      cases closing with
      | waiting place =>
          obtain ⟨rfl, rfl, _⟩ := Tunnel.resumeClose_waiting ticket hclose
          exact hseated.set ht fun _ => rfl
      | done result =>
          obtain ⟨middle, hshutdown, rfl⟩ := Tunnel.resumeClose_done ticket hclose
          have hseat := (Tunnel.sameButSink_shutdown? hshutdown).seat_eq
          have hmiddle :=
            (hseated.congr (List.Perm.refl _) (List.subset_cons_self _ _)).set ht hseat
          have hleft := hmiddle.leave hheld (getElem?_set_of_getElem? ht)
          rw [List.set_set] at hleft
          exact hleft

theorem close (hseated : Seated claims held tunnels) (ht : tunnels[number]? = some t) :
    Seated (t.close.1.claims number ++ claims) (t.close.1.claims number ++ held)
      (tunnels.set number t.close.2) := by
  have hshut : Seated claims held (tunnels.set number t.shut) :=
    hseated.set ht (Tunnel.seat_shut (t := t))
  rcases t.close_cases with ⟨_, hclose⟩ | ⟨_, _, hclose⟩ | ⟨_, hfree, hclose⟩
  · rw [hclose]
    exact hseated.set ht fun _ => rfl
  · rw [hclose]
    exact hshut
  · -- the close takes the seat, which is free, and goes on as its holder
    rw [hclose]
    have hdrawn := hshut.draw (getElem?_set_of_getElem? ht) .writer
    rw [List.set_set, Tunnel.seat_shut] at hdrawn
    have hserved : Claim.IsServed ⟨.writer, number, t.writerSeat.next⟩
        (tunnels.set number (t.shut.draw .writer).2) := by
      refine ⟨_, getElem?_set_of_getElem? ht, ?_⟩
      rw [Tunnel.seat_snd_draw, Tunnel.seat_setSeat, ← Seat.fst_draw]
      exact Seat.isServing_draw_of_not_isHeld hfree
    have hresumed := (hdrawn.hold List.mem_cons_self hserved).resumeClose hseated.held_subset
      (getElem?_set_of_getElem? ht)
    rw [List.set_set] at hresumed
    exact hresumed

/-- A sweep holds no seat but that of the tunnel whose close it waits for. -/
theorem closeEach (hseated : Seated claims held tunnels) (count : Nat) (numbers : List Nat) :
    Seated ((Sweep.closeEach count numbers tunnels).1.claims ++ claims)
      ((Sweep.closeEach count numbers tunnels).1.claims ++ held)
      (Sweep.closeEach count numbers tunnels).2 := by
  induction numbers generalizing tunnels with
  | nil => exact hseated
  | cons number rest ih =>
      unfold Sweep.closeEach
      split
      · exact ih hseated
      next t ht =>
        have hclosed := hseated.close ht
        split
        next result after hclose =>
          rw [hclose] at hclosed
          exact ih hclosed
        next ticket after hclose =>
          rw [hclose] at hclosed
          exact hclosed

end Seated

end LongPollTunnel

import LongPollTunnel.Hub.Run
import LongPollTunnel.Proofs.Steps

/-! # Who holds the seats of a hub

Along every run the tickets that the agents of a hub have are the tickets that its seats
know, and an agent that acts as the holder of a seat is the one that is served. So a
tunnel has one reader and one writer at most, whatever order the agents go on in. Main
statement: every move keeps this.
-/

namespace LongPollTunnel

theorem flatMap_perm_of_getElem? {α β : Type} {l : List α} {i : Nat} {a : α}
    (hget : l[i]? = some a) (f : α → List β) :
    (l.flatMap f).Perm (f a ++ (l.eraseIdx i).flatMap f) := by
  obtain ⟨hlt, rfl⟩ := List.getElem?_eq_some_iff.mp hget
  exact (List.getElem_cons_eraseIdx_perm hlt).symm.flatMap_right f

theorem flatMap_set_perm_of_getElem? {α β : Type} {l : List α} {i : Nat} {a : α}
    (hget : l[i]? = some a) (b : α) (f : α → List β) :
    ((l.set i b).flatMap f).Perm (f b ++ (l.eraseIdx i).flatMap f) := by
  obtain ⟨hlt, rfl⟩ := List.getElem?_eq_some_iff.mp hget
  exact (List.set_perm_cons_eraseIdx hlt b).flatMap_right f

theorem append_subset_append {α : Type} {l l' r r' : List α} (hleft : l ⊆ l') (hright : r ⊆ r') :
    l ++ r ⊆ l' ++ r' :=
  List.append_subset.mpr ⟨List.Subset.trans hleft (List.subset_append_left _ _),
    List.Subset.trans hright (List.subset_append_right _ _)⟩

/-! ## The claims of a call -/

namespace Call

variable {c after : Call} {task : Task} {x : Claim}

/-- A call whose task claims no seat claims what it holds. -/
theorem claims_of_claim?_none (hclaim : c.taskClaim? = none) : c.claims = c.holds := by
  simp [claims, hclaim]

theorem held_of_claim?_none (hclaim : c.taskClaim? = none) : c.held = c.holds := by
  simp [held, hclaim]

theorem claims_of_task (htask : c.task = some task) (hclaim : task.claim? = some x) :
    c.claims = x :: c.holds := by
  simp [claims, taskClaim?, htask, hclaim]

theorem held_of_holding (htask : c.task = some task) (hclaim : task.claim? = some x)
    (hholding : task.isHolding = true) : c.held = x :: c.holds := by
  simp [held, taskClaim?, htask, hclaim, hholding]

/-- Who waits for a seat does not hold it. -/
theorem held_of_waiting (htask : c.task = some task) (hwaiting : task.isHolding = false) :
    c.held = c.holds := by
  simp [held, htask, hwaiting]

/-- What is held is claimed. -/
theorem held_subset_claims (c : Call) : c.held ⊆ c.claims := by
  unfold held claims
  split
  · exact List.Subset.refl _
  · exact List.subset_append_right _ _

theorem Quiet.holds_eq (hquiet : c.Quiet after) : after.holds = c.holds := by
  simp [holds, hquiet.readerHold, hquiet.writerHold]

/-- A quiet step neither takes a seat nor gives one back. -/
theorem Quiet.claims_eq (hquiet : c.Quiet after) : after.claims = c.claims := by
  rcases hquiet.task with htask | ⟨hclaim, hclaim'⟩
  · simp [claims, taskClaim?, htask, hquiet.holds_eq]
  · rw [claims_of_claim?_none hclaim, claims_of_claim?_none hclaim', hquiet.holds_eq]

theorem Quiet.held_eq (hquiet : c.Quiet after) : after.held = c.held := by
  rcases hquiet.task with htask | ⟨hclaim, hclaim'⟩
  · simp [held, taskClaim?, htask, hquiet.holds_eq]
  · rw [held_of_claim?_none hclaim, held_of_claim?_none hclaim', hquiet.holds_eq]

/-- The seats that a call has acquired, one role apart. -/
theorem holds_perm (c : Call) (role : Role) :
    c.holds.Perm (((c.hold role).map (·.claim role)).toList ++ (c.setHold role none).holds) := by
  cases role with
  | reader => simp [holds, hold, setHold]
  | writer => simpa [holds, hold, setHold] using List.perm_append_comm

/-- A call that is given a seat claims that one besides the others. -/
theorem holds_setHold_perm (c : Call) (role : Role) (new : Hold) :
    (c.setHold role (some new)).holds.Perm (new.claim role :: (c.setHold role none).holds) := by
  cases role <;> simp [holds, setHold]

/-- A close that waits holds the writer's seat. -/
theorem claims_takeClosing (c : Call) (number : Nat) (closing : Tunnel.Closing) :
    (c.takeClosing number closing).claims = closing.claims number ++ c.holds ∧
      (c.takeClosing number closing).held = closing.claims number ++ c.holds := by
  cases closing with
  | done result => exact ⟨rfl, rfl⟩
  | waiting ticket => exact ⟨rfl, rfl⟩

end Call

namespace Hub

variable {h : Hub} {i : Nat} {c : Call}

/-- The tickets of all agents but the call with this number. -/
def claimsBut (h : Hub) (i : Nat) : List Claim :=
  (h.calls.eraseIdx i).flatMap Call.claims ++ (h.streams.flatMap Stream.claims ++
    h.sweepers.flatMap Sweeper.claims)

def heldBut (h : Hub) (i : Nat) : List Claim :=
  (h.calls.eraseIdx i).flatMap Call.held ++ (h.streams.flatMap Stream.claims ++
    h.sweepers.flatMap Sweeper.claims)

theorem held_append_subset (calls : List Call) (others : List Claim) :
    calls.flatMap Call.held ++ others ⊆ calls.flatMap Call.claims ++ others := by
  refine append_subset_append ?_ (List.Subset.refl _)
  intro x hx
  obtain ⟨c, hc, hheld⟩ := List.mem_flatMap.mp hx
  exact List.mem_flatMap.mpr ⟨c, hc, c.held_subset_claims hheld⟩

theorem heldBut_subset (h : Hub) (i : Nat) : h.heldBut i ⊆ h.claimsBut i :=
  held_append_subset _ _

/-- The seats of a hub and the tickets of its agents fit together. -/
def IsSeated (h : Hub) : Prop :=
  Seated h.claims h.held h.tunnels

/-- The claims of one call can be looked at by themselves. -/
theorem IsSeated.of_call (hc : h.calls[i]? = some c) (hseated : h.IsSeated) :
    Seated (c.claims ++ h.claimsBut i) (c.held ++ h.heldBut i) h.tunnels := by
  refine hseated.congr ?_ ?_
  · have hperm := (flatMap_perm_of_getElem? hc Call.claims).append_right
      (h.streams.flatMap Stream.claims ++ h.sweepers.flatMap Sweeper.claims)
    rw [List.append_assoc] at hperm
    exact hperm.symm
  · have hperm := (flatMap_perm_of_getElem? hc Call.held).append_right
      (h.streams.flatMap Stream.claims ++ h.sweepers.flatMap Sweeper.claims)
    rw [List.append_assoc] at hperm
    exact hperm.symm.subset

/-- A call that is put back may have other tickets if the seats fit. -/
theorem isSeated_setCall (hc : h.calls[i]? = some c) {after : Call}
    (hseated : Seated (after.claims ++ h.claimsBut i) (after.held ++ h.heldBut i) h.tunnels) :
    (h.setCall i after).IsSeated := by
  refine hseated.congr ?_ ?_
  · have hperm := (flatMap_set_perm_of_getElem? hc after Call.claims).append_right
      (h.streams.flatMap Stream.claims ++ h.sweepers.flatMap Sweeper.claims)
    rw [List.append_assoc] at hperm
    exact hperm
  · have hperm := (flatMap_set_perm_of_getElem? hc after Call.held).append_right
      (h.streams.flatMap Stream.claims ++ h.sweepers.flatMap Sweeper.claims)
    rw [List.append_assoc] at hperm
    exact hperm.subset

/-! ## Giving tickets back -/

/-- A call that waited with a ticket, if it did, does not count as queued any more. -/
def unqueue? (h : Hub) (awaited : Option Claim) : Hub :=
  { h with
    tunnels := awaited.elim h.tunnels fun x => h.tunnels.modify x.tunnel (·.unqueue x.role) }

/-- Leaves the seats that some tickets are for. -/
def leaveEach (h : Hub) (claims : List Claim) : Hub :=
  claims.foldl (fun h x => h.leave x.role ⟨x.tunnel, x.ticket⟩) h

/-- Gives some tickets back and takes the call that has them, if it waited, out of the count of
queued readers. -/
def giveBack (h : Hub) (claims : List Claim) (awaited : Option Claim) : Hub :=
  (h.unqueue? awaited).leaveEach claims

theorem abandon_eq_giveBack (h : Hub) (task : Task) :
    h.abandon task = h.giveBack task.claim?.toList task.awaited? := by
  have hwaiting (role : Role) (number ticket : Nat) :
      { h with tunnels := h.tunnels.modify number fun t => (t.unqueue role).leave role ticket } =
        (h.unqueue role number).leave role ⟨number, ticket⟩ :=
    congrArg (fun tunnels => { h with tunnels })
      (List.modify_modify_eq (Tunnel.unqueue · role) (Tunnel.leave · role ticket) number
        h.tunnels).symm
  cases task with
  | handle number handling hold =>
      cases handling with
      | awaitReader ticket => exact hwaiting .reader number ticket
      | awaitWriter ticket => exact hwaiting .writer number ticket
      | relaying _ _ | closing _ _ => rfl
  | _ => rfl

theorem leave?_eq_giveBack (h : Hub) (role : Role) (hold : Option Hold) :
    h.leave? role hold = h.giveBack (hold.map (·.claim role)).toList none := by
  cases hold <;> rfl

/-- Whoever comes to be served ceases to count as queued and gives up the seat that it had. -/
theorem unqueue_leave?_eq_giveBack (h : Hub) (role : Role) (new : Hold) (old : Option Hold) :
    (h.unqueue role new.tunnel).leave? role old =
      h.giveBack (old.map (·.claim role)).toList (some (new.claim role)) := by
  cases old <;> rfl

/-- Tickets may be given back one group after the other. -/
theorem giveBack_append (h : Hub) (claims claims' : List Claim) (awaited : Option Claim) :
    h.giveBack (claims ++ claims') awaited = (h.giveBack claims awaited).giveBack claims' none :=
  List.foldl_append

theorem leaveEach_eq (h : Hub) (claims : List Claim) :
    h.leaveEach claims = { h with tunnels := (h.leaveEach claims).tunnels } := by
  induction claims generalizing h with
  | nil => rfl
  | cons x rest ih => exact ih (h.leave x.role ⟨x.tunnel, x.ticket⟩)

/-- Nothing but tunnels changes. -/
theorem giveBack_eq (h : Hub) (claims : List Claim) (awaited : Option Claim) :
    h.giveBack claims awaited = { h with tunnels := (h.giveBack claims awaited).tunnels } :=
  (h.unqueue? awaited).leaveEach_eq claims

/-- It is no matter of the seats who counts as queued. -/
theorem seated_unqueue? {claims held : List Claim} (hseated : Seated claims held h.tunnels)
    (awaited : Option Claim) : Seated claims held (h.unqueue? awaited).tunnels := by
  cases awaited with
  | none => exact hseated
  | some x => exact hseated.modify x.tunnel fun t role => t.seat_unqueue x.role role

/-- By induction over the tickets that are given back. -/
theorem seated_leaveEach {claims held : List Claim} {given : List Claim}
    (hseated : Seated (given ++ claims) held h.tunnels) (hheld : held ⊆ claims) :
    Seated claims held (h.leaveEach given).tunnels := by
  induction given generalizing h with
  | nil => exact hseated
  | cons x rest ih =>
      refine ih (h := h.leave x.role ⟨x.tunnel, x.ticket⟩) ?_
      exact hseated.leave_modify fun y hy => List.mem_append_right _ (hheld hy)

/-- Whoever gives tickets back has them no more, and nobody else may act under them. -/
theorem seated_giveBack {claims held : List Claim} {given : List Claim}
    (hseated : Seated (given ++ claims) held h.tunnels) (hheld : held ⊆ claims)
    (awaited : Option Claim) : Seated claims held (h.giveBack given awaited).tunnels :=
  seated_leaveEach (seated_unqueue? hseated awaited) hheld

end Hub

/-! ## Handling requests and streaming -/

namespace Seated

variable {claims held : List Claim} {tunnels : List Tunnel} {number : Nat} {r : Registry}
  {t : Tunnel}

/-- A relay gives the writer's seat back before it takes the tunnel down. -/
theorem failRelay {ticket : Nat}
    (hseated : Seated (⟨.writer, number, ticket⟩ :: claims) (⟨.writer, number, ticket⟩ :: held)
      tunnels)
    (failure : Failure) (around : Handling.Surroundings) (hheld : held ⊆ claims)
    (ht : tunnels[number]? = some around.tunnel) :
    Seated ((Handling.failRelay ticket failure around).1.claims number ++ claims)
      ((Handling.failRelay ticket failure around).1.claims number ++ held)
      (tunnels.set number (Handling.failRelay ticket failure around).2.tunnel) := by
  have hleft := (hseated.congr (List.Perm.refl _) (List.subset_cons_self _ _)).leave hheld ht
  have hclosed := hleft.close (getElem?_set_of_getElem? ht)
  rw [List.set_set] at hclosed
  rw [Handling.failRelay_eq]
  have hclaims (closing : Tunnel.Closing) :
      (Handling.afterClosing failure closing).claims number = closing.claims number := by
    cases closing <;> rfl
  rw [hclaims]
  exact hclosed

/-- The handling of a request goes on with the tickets that its progress tells. -/
theorem handle {handling : Handling} {u : Upload} {progress : Handling.Progress}
    {after : Handling.Surroundings} (hstep : handling.Step r t u progress after)
    (hseated : Seated (handling.claim number :: claims)
      ((if handling.isHolding then [handling.claim number] else []) ++ held) tunnels)
    (hheld : held ⊆ claims) (ht : tunnels[number]? = some t) :
    Seated (progress.claims number ++ claims) (progress.claims number ++ held)
      (tunnels.set number after.tunnel) := by
  cases hstep with
  | reads hserving =>
      exact (hseated.set ht fun role => t.seat_unqueue .reader role).hold List.mem_cons_self
        ⟨_, getElem?_set_of_getElem? ht, hserving⟩
  | writes hserving =>
      exact (hseated.set ht fun _ => rfl).hold List.mem_cons_self
        ⟨t, getElem?_set_of_getElem? ht, hserving⟩
  | takes _ hwrite => exact hseated.set ht (Tunnel.sameButSink_of_writeAll hwrite).seat_eq
  | blocks _ hwrite => exact hseated.set ht (Tunnel.sameButSink_of_writeAll hwrite).seat_eq
  | @fails ticket rest failure used left hfails =>
      have hused := hseated.set ht hfails.sameButSink.seat_eq
      have hfailed := hused.failRelay failure ⟨r, used, left⟩ hheld
        (getElem?_set_of_getElem? ht)
      rw [List.set_set] at hfailed
      exact hfailed
  | @finishes ticket after _ _ hflush =>
      have hholder : Seated (⟨.writer, number, ticket⟩ :: claims)
          (⟨.writer, number, ticket⟩ :: held)
          tunnels := hseated
      have hflushed := hholder.set ht (Tunnel.sameButSink_flush? hflush).seat_eq
      have hleft := (hflushed.congr (List.Perm.refl _) (List.subset_cons_self _ _)).leave hheld
        (getElem?_set_of_getElem? ht)
      rw [List.set_set] at hleft
      exact hleft
  | @closes ticket failure result after hclose =>
      have hholder : Seated (⟨.writer, number, ticket⟩ :: claims)
          (⟨.writer, number, ticket⟩ :: held)
          tunnels := hseated
      have hclosed := hholder.resumeClose hheld ht
      rw [hclose] at hclosed
      exact hclosed

/-- A stream that ends gives the reader's seat back; one that finishes keeps it until its
outlet is flushed. -/
theorem afterTeardown {s : Stream}
    (hseated : Seated (⟨.reader, s.tunnel, s.ticket⟩ :: claims)
      (⟨.reader, s.tunnel, s.ticket⟩ :: held) tunnels)
    (failure : Failure) (around : Stream.Surroundings) (hheld : held ⊆ claims)
    (ht : tunnels[s.tunnel]? = some around.tunnel) :
    Seated ((s.afterTeardown failure around).2.claims ++ claims)
      ((s.afterTeardown failure around).2.claims ++ held)
      (tunnels.set s.tunnel (s.afterTeardown failure around).1.tunnel) := by
  unfold Stream.afterTeardown
  split
  · exact hseated.set ht fun _ => rfl
  · exact (hseated.congr (List.Perm.refl _) (List.subset_cons_self _ _)).leave hheld ht

/-- A stream that fails leaves its seat, or keeps it while the close waits. -/
theorem fail {s : Stream}
    (hseated : Seated (⟨.reader, s.tunnel, s.ticket⟩ :: claims)
      (⟨.reader, s.tunnel, s.ticket⟩ :: held) tunnels)
    (failure : Failure) (around : Stream.Surroundings) (hheld : held ⊆ claims)
    (ht : tunnels[s.tunnel]? = some around.tunnel) :
    Seated ((s.fail failure around).2.claims ++ claims)
      ((s.fail failure around).2.claims ++ held)
      (tunnels.set s.tunnel (s.fail failure around).1.tunnel) := by
  rw [Stream.fail_eq]
  have hclosed := hseated.close ht
  cases hclosing : around.tunnel.close.1 with
  | done result =>
      rw [hclosing] at hclosed
      have hdown := hclosed.afterTeardown failure
        ⟨around.registry.erase around.tunnel.identity.text, around.tunnel.close.2⟩ hheld
        (getElem?_set_of_getElem? ht)
      rw [List.set_set] at hdown
      exact hdown
  | waiting ticket =>
      rw [hclosing] at hclosed
      exact hclosed.congr (List.Perm.swap _ _ _) (List.Perm.swap _ _ _).subset

/-- What a stream may hold while it goes on. -/
theorem goesOn {s s' : Stream} {around after : Stream.Surroundings}
    (hgoesOn : s.GoesOn around after s')
    (hseated : Seated (⟨.reader, s.tunnel, s.ticket⟩ :: claims)
      (⟨.reader, s.tunnel, s.ticket⟩ :: held) tunnels)
    (ht : tunnels[s.tunnel]? = some around.tunnel) :
    Seated (s'.claims ++ claims) (s'.claims ++ held) (tunnels.set s.tunnel after.tunnel) := by
  have hclaims : s'.claims = [⟨.reader, s.tunnel, s.ticket⟩] := by
    rcases hgoesOn.stream with heq | ⟨deadline, heq⟩ | heq | heq <;> rw [heq] <;> rfl
  rw [hclaims]
  rcases hgoesOn.tunnel with hsame | hlooked
  · exact hseated.set ht fun role => by rw [hsame]
  · exact hseated.set ht fun role => by
      rw [hlooked]
      exact Tunnel.sameButReader_available.seat_eq role

/-- However a stream goes on, it holds its seat until it has ended. -/
theorem stream {now : Nat} {s s' : Stream} {after : Stream.Surroundings}
    (hstep : s.Step now r t after s')
    (hseated : Seated (s.claims ++ claims) (s.claims ++ held) tunnels)
    (hheld : held ⊆ claims) (ht : tunnels[s.tunnel]? = some t) :
    Seated (s'.claims ++ claims) (s'.claims ++ held) (tunnels.set s.tunnel after.tunnel) := by
  cases hstep with
  | idles hphase hread =>
      simp only [Stream.claims, hphase] at hseated
      exact hseated.set ht (Tunnel.sameButReader_of_readSome hread).seat_eq
  | reads hphase hread hwrite =>
      simp only [Stream.claims, hphase] at hseated
      have hused := hseated.set ht (Tunnel.sameButReader_of_readSome hread).seat_eq
      have hwritten := hused.goesOn hwrite (getElem?_set_of_getElem? ht)
      rw [List.set_set] at hwritten
      exact hwritten
  | waits hphase hread => exact hseated.set ht (Tunnel.sameButReader_of_readSome hread).seat_eq
  | @fails deadline failure read hphase hread =>
      simp only [Stream.claims, hphase] at hseated
      have hused := hseated.set ht (Tunnel.sameButReader_of_readSome hread).seat_eq
      have hfailed := hused.fail failure ⟨r, read⟩ hheld
        (getElem?_set_of_getElem? ht)
      rw [List.set_set] at hfailed
      exact hfailed
  | @flushes next outlet _ _ hphase _ _ hgoesOn =>
      simp only [Stream.claims, hphase] at hseated
      exact Seated.goesOn (s := { s with outlet }) hgoesOn hseated ht
  | leaves hphase _ =>
      simp only [Stream.claims, hphase] at hseated
      exact (hseated.congr (List.Perm.refl _) (List.subset_cons_self _ _)).leave hheld ht
  | loses hphase _ _ =>
      simp only [Stream.claims, hphase] at hseated
      exact hseated.fail _ ⟨r, t⟩ hheld ht
  | @closes failure ticket result closed hphase hclose =>
      simp only [Stream.claims, hphase] at hseated
      have hswap := hseated.congr (List.Perm.swap _ _ _) (List.Perm.swap _ _ _).subset
      have hclosed := hswap.resumeClose (List.cons_subset_cons _ hheld) ht
      rw [hclose] at hclosed
      have hdown := hclosed.afterTeardown failure ⟨r, closed⟩ hheld
        (getElem?_set_of_getElem? ht)
      rw [List.set_set] at hdown
      exact hdown

end Seated

namespace Hub

variable {h : Hub} {i : Nat} {c : Call}

/-! ## What calls do -/

/-- Tickets of a call are given back, and the call keeps the others. -/
theorem isSeated_giveBack (hc : h.calls[i]? = some c) (hseated : h.IsSeated) {after : Call}
    {given : List Claim} (hclaims : c.claims.Perm (given ++ after.claims))
    (hheld : after.held ⊆ c.held) (awaited : Option Claim) :
    ((h.giveBack given awaited).setCall i after).IsSeated := by
  have hcall := hseated.of_call hc
  have hperm : (given ++ (after.claims ++ h.claimsBut i)).Perm (c.claims ++ h.claimsBut i) := by
    rw [← List.append_assoc]
    exact hclaims.symm.append_right _
  have hgiven := seated_giveBack
    (hcall.congr hperm (append_subset_append hheld (List.Subset.refl _)))
    (append_subset_append after.held_subset_claims (h.heldBut_subset i)) awaited
  rw [giveBack_eq]
  exact isSeated_setCall (h := { h with tunnels := (h.giveBack given awaited).tunnels }) hc hgiven

/-- A call that claims the same keeps the seats in order. -/
theorem IsSeated.setCall (hseated : h.IsSeated) (hc : h.calls[i]? = some c) {after : Call}
    (hclaims : after.claims = c.claims) (hheld : after.held = c.held) :
    (h.setCall i after).IsSeated := by
  refine isSeated_setCall hc ?_
  rw [hclaims, hheld]
  exact hseated.of_call hc

theorem IsSeated.quiet (hseated : h.IsSeated) (hc : h.calls[i]? = some c) {after : Call}
    (hquiet : c.Quiet after) : (h.setCall i after).IsSeated :=
  hseated.setCall hc hquiet.claims_eq hquiet.held_eq

/-- The seats of an idle call are those that it has acquired. -/
theorem IsSeated.of_idle (hseated : h.IsSeated) (hc : h.calls[i]? = some c)
    (hidle : c.taskClaim? = none) :
    Seated (c.holds ++ h.claimsBut i) (c.holds ++ h.heldBut i) h.tunnels := by
  have hcall := hseated.of_call hc
  rw [Call.claims_of_claim?_none hidle, Call.held_of_claim?_none hidle] at hcall
  exact hcall

theorem holds_heldBut_subset (h : Hub) (i : Nat) (c : Call) :
    c.holds ++ h.heldBut i ⊆ c.holds ++ h.claimsBut i :=
  append_subset_append (List.Subset.refl _) (h.heldBut_subset i)

/-- A ticket that is drawn is claimed by the one who drew it. -/
theorem isSeated_draw {number : Nat} {t : Tunnel} {role : Role} (hseated : h.IsSeated)
    (hc : h.calls[i]? = some c) (hidle : c.task = none) (ht : h.tunnels[number]? = some t)
    {after : Call} {task : Task} (htask : after.task = some task)
    (hclaim : task.claim? = some ⟨role, number, (t.seat role).next⟩)
    (hwaiting : task.isHolding = false) (hholds : after.holds = c.holds) :
    ((h.setTunnel number (t.draw role).2).setCall i after).IsSeated := by
  refine isSeated_setCall (h := h.setTunnel number (t.draw role).2) hc ?_
  rw [Call.claims_of_task htask hclaim, Call.held_of_waiting htask hwaiting, hholds]
  exact (hseated.of_idle hc (taskClaim?_of_idle hidle)).draw ht role

/-- Whoever comes to be served becomes the holder, and gives up the seat that it had. -/
theorem isSeated_acquired {role : Role} {new : Hold} {t : Tunnel} (hseated : h.IsSeated)
    (hc : h.calls[i]? = some c) (htask : c.task = some (.acquire role new))
    (ht : h.tunnels[new.tunnel]? = some t) (hserving : (t.seat role).isServing new.ticket = true) :
    (((h.unqueue role new.tunnel).leave? role (c.hold role)).setCall i
      ((c.setHold role (some new)).finish .acquired)).IsSeated := by
  have hcall := hseated.of_call hc
  rw [Call.claims_of_task htask rfl, Call.held_of_waiting htask rfl] at hcall
  have hholder := hcall.hold (x := new.claim role) List.mem_cons_self ⟨t, ht, hserving⟩
  -- the call may hold another seat of this role, which goes back now
  let others := (c.setHold role none).holds
  let given := ((c.hold role).map (·.claim role)).toList
  have hperm (rest : List Claim) :
      (given ++ (new.claim role :: others ++ rest)).Perm (new.claim role :: c.holds ++ rest) := by
    have hmiddle : (given ++ new.claim role :: others).Perm (new.claim role :: (given ++ others)) :=
      List.perm_middle
    have hown := hmiddle.trans ((c.holds_perm role).symm.cons (new.claim role))
    rw [← List.append_assoc]
    exact hown.append_right rest
  have hsubset : new.claim role :: others ⊆ new.claim role :: c.holds :=
    List.cons_subset_cons _
      (List.Subset.trans (List.subset_append_right given others) (c.holds_perm role).symm.subset)
  have hgiven := seated_giveBack
    (hholder.congr (hperm _) (append_subset_append hsubset (List.Subset.refl _)))
    (append_subset_append (List.Subset.refl (new.claim role :: others)) (h.heldBut_subset i))
    (some (new.claim role))
  rw [unqueue_leave?_eq_giveBack, giveBack_eq]
  refine isSeated_setCall
    (h := { h with tunnels := (h.giveBack given (some (new.claim role))).tunnels }) hc ?_
  have hafter := c.holds_setHold_perm role new
  exact hgiven.congr (hafter.append_right _)
    (append_subset_append hafter.subset (List.Subset.refl _))

theorem isSeated_takeClosing {number : Nat} {after : Tunnel} {closing : Tunnel.Closing}
    (hc : h.calls[i]? = some c)
    (hclosed : Seated (closing.claims number ++ (c.holds ++ h.claimsBut i))
      (closing.claims number ++ (c.holds ++ h.heldBut i)) (h.tunnels.set number after)) :
    ((h.setTunnel number after).setCall i (c.takeClosing number closing)).IsSeated := by
  refine isSeated_setCall (h := h.setTunnel number after) hc ?_
  obtain ⟨hclaims, hheld⟩ := c.claims_takeClosing number closing
  rw [hclaims, hheld, List.append_assoc, List.append_assoc]
  exact hclosed

theorem isSeated_keepSweep {tunnels : List Tunnel} {registry : Registry}
    {progress : Sweep.Progress} (hc : h.calls[i]? = some c)
    (hclosed : Seated (progress.claims ++ (c.holds ++ h.claimsBut i))
      (progress.claims ++ (c.holds ++ h.heldBut i)) tunnels) :
    ({ h with registry, tunnels }.keepSweep i c progress).IsSeated := by
  rw [keepSweep_eq]
  refine isSeated_setCall (h := { h with registry, tunnels }) hc ?_
  have hclaims : (c.takeSweep progress).claims = progress.claims ++ c.holds := by
    cases progress <;> rfl
  have hheld : (c.takeSweep progress).held = progress.claims ++ c.holds := by
    cases progress <;> rfl
  rw [hclaims, hheld, List.append_assoc, List.append_assoc]
  exact hclosed

/-- A call that is left with the seats that it has acquired. -/
theorem isSeated_setCall_of_unclaimed (hc : h.calls[i]? = some c) {after : Call}
    (hafter : after.taskClaim? = none) (hholds : after.holds = c.holds)
    (hseated : Seated (c.holds ++ h.claimsBut i) (c.holds ++ h.heldBut i) h.tunnels) :
    (h.setCall i after).IsSeated := by
  refine isSeated_setCall hc ?_
  rw [Call.claims_of_claim?_none hafter, Call.held_of_claim?_none hafter, hholds]
  exact hseated

theorem isSeated_answered (registry : Registry) (after : Call) (hseated : h.IsSeated)
    (hc : h.calls[i]? = some c) (hidle : c.task = none) (hholds : after.holds = c.holds)
    (head : Head) (body : Body) (hold : Bool) :
    ({ h with registry }.respond i after head body hold).IsSeated := by
  have hafter : (after.answered head body hold).taskClaim? = none := by
    cases hold <;> rfl
  rw [respond_eq]
  exact isSeated_setCall_of_unclaimed (h := { h with registry }) hc hafter hholds
    (hseated.of_idle hc (taskClaim?_of_idle hidle))

theorem claimsBut_addStream_perm (h : Hub) (i : Nat) (s : Stream) :
    ({ h with streams := h.streams ++ [s] }.claimsBut i).Perm (s.claims ++ h.claimsBut i) := by
  simp only [claimsBut, List.flatMap_append, List.flatMap_singleton]
  refine (List.Perm.append_left _ (List.perm_append_comm.append_right _)).trans ?_
  rw [List.append_assoc]
  exact List.perm_append_comm_assoc _ _ _

theorem heldBut_addStream_perm (h : Hub) (i : Nat) (s : Stream) :
    ({ h with streams := h.streams ++ [s] }.heldBut i).Perm (s.claims ++ h.heldBut i) := by
  simp only [heldBut, List.flatMap_append, List.flatMap_singleton]
  refine (List.Perm.append_left _ (List.perm_append_comm.append_right _)).trans ?_
  rw [List.append_assoc]
  exact List.perm_append_comm_assoc _ _ _

/-- A call takes up how far the handling of its request got; a request that reads hands its
ticket over to a stream. -/
theorem isSeated_takeProgress {number : Nat} {hold : Bool} {progress : Handling.Progress}
    {after : Handling.Surroundings} (hc : h.calls[i]? = some c)
    (hseated : Seated (progress.claims number ++ (c.holds ++ h.claimsBut i))
      (progress.claims number ++ (c.holds ++ h.heldBut i)) (h.tunnels.set number after.tunnel)) :
    (h.takeProgress i c number hold progress after).IsSeated := by
  have hanswered (head : Head) (body : Body) :
      ({ c with upload := after.upload }.answered head body hold).taskClaim? = none := by
    cases hold <;> rfl
  cases progress with
  | goOn handling =>
      refine isSeated_setCall
        (h := { h with registry := after.registry, tunnels := h.tunnels.set number after.tunnel })
        hc (hseated.congr (List.Perm.refl _) ?_)
      change _ ⊆ (handling.claim number :: c.holds) ++ h.heldBut i
      exact append_subset_append (Call.held_subset_claims _) (List.Subset.refl _)
  | answer head =>
      exact isSeated_setCall_of_unclaimed
        (h := { h with registry := after.registry, tunnels := h.tunnels.set number after.tunnel })
        hc (hanswered head .empty) rfl hseated
  | stream ticket =>
      let h' : Hub :=
        { h with registry := after.registry, tunnels := h.tunnels.set number after.tunnel }
      let s := Stream.start h.clock number ticket after.tunnel
      -- the ticket is no longer the call's but the stream's
      refine isSeated_setCall_of_unclaimed (h := { h' with streams := h'.streams ++ [s] })
        hc (hanswered .reading _) rfl (hseated.congr ?_ ?_)
      · exact ((h'.claimsBut_addStream_perm i s).append_left _).trans
          (List.perm_append_comm_assoc _ _ _)
      · exact (((h'.heldBut_addStream_perm i s).append_left _).trans
          (List.perm_append_comm_assoc _ _ _)).subset

theorem isSeated_handle {number : Nat} {handling : Handling} {hold : Bool} {t : Tunnel}
    {progress : Handling.Progress} {after : Handling.Surroundings} (hseated : h.IsSeated)
    (hc : h.calls[i]? = some c) (htask : c.task = some (.handle number handling hold))
    (ht : h.tunnels[number]? = some t)
    (hstep : handling.Step h.registry t c.upload progress after) :
    (h.takeProgress i c number hold progress after).IsSeated := by
  have hcall := hseated.of_call hc
  have hheld :
      c.held = (if handling.isHolding then [handling.claim number] else []) ++ c.holds := by
    simp [Call.held, Call.taskClaim?, htask, Task.isHolding, Task.claim?]
  rw [Call.claims_of_task htask rfl, hheld, List.append_assoc] at hcall
  exact isSeated_takeProgress hc (hcall.handle hstep (holds_heldBut_subset h i c) ht)

theorem Starts.isSeated {r : Request} {next : Hub} (hstarts : h.Starts i c r next)
    (hseated : h.IsSeated) (hc : h.calls[i]? = some c) (hidle : c.task = none) :
    next.IsSeated := by
  have hanswer (registry : Registry) (head : Head) (body : Body) :=
    isSeated_answered registry (c.asking r) hseated hc hidle rfl head body r.hold
  cases hstarts with
  | invalid _ => exact hanswer h.registry _ _
  | uncreated _ _ => exact hanswer h.registry _ _
  | created _ _ _ => exact hanswer _ _ _
  | absent _ _ _ => exact hanswer h.registry _ _
  | @waits _ role identity _ _ _ _ _ ht =>
      refine isSeated_draw (h := { h with registry := (h.registry.get identity h.now).2 })
        hseated hc hidle ht rfl ?_ ?_ rfl
      · cases role <;> rfl
      · cases role <;> rfl

theorem flatMap_set_of_eq {α β : Type} {l : List α} {j : Nat} {a b : α} {f : α → List β}
    (hget : l[j]? = some a) (heq : f b = f a) : (l.set j b).flatMap f = l.flatMap f := by
  obtain ⟨hlt, rfl⟩ := List.getElem?_eq_some_iff.mp hget
  have hself : (l.map f).set j (f l[j]) = l.map f := by
    rw [← List.getElem_map f (h := by simpa using hlt), List.set_getElem_self]
  rw [List.flatMap_def, List.flatMap_def, List.map_set, heq, hself]

/-- Taking a chunk, or letting go of the body, is no business of the stream's. -/
theorem IsSeated.setOutlet (hseated : h.IsSeated) {j : Nat} {s : Stream}
    (hs : h.streams[j]? = some s) (outlet : Outlet) :
    { h with streams := h.streams.set j { s with outlet } }.IsSeated := by
  have hsame : (h.streams.set j { s with outlet }).flatMap Stream.claims =
      h.streams.flatMap Stream.claims := flatMap_set_of_eq hs rfl
  unfold IsSeated claims held at hseated ⊢
  rw [hsame]
  exact hseated

theorem IsSeated.dropBody (hseated : h.IsSeated) (body : Body) : (h.dropBody body).IsSeated := by
  rcases h.dropBody_cases body with heq | ⟨j, s, hs, heq⟩
  · rw [heq]
    exact hseated
  · rw [heq]
    exact hseated.setOutlet hs _

theorem abortTask_eq (h : Hub) (i : Nat) (c : Call) :
    h.abortTask i c =
      (h.giveBack c.taskClaim?.toList c.awaited?).setCall i { c with task := none } := by
  unfold abortTask Call.taskClaim? Call.awaited?
  cases c.task with
  | none => rfl
  | some task =>
      dsimp only
      rw [abandon_eq_giveBack]
      rfl

theorem isSeated_abortTask (hseated : h.IsSeated) (hc : h.calls[i]? = some c) :
    (h.abortTask i c).IsSeated := by
  rw [abortTask_eq]
  refine isSeated_giveBack hc hseated (List.Perm.refl _) ?_ _
  exact List.subset_append_right _ _

theorem leave?_setCall (h : Hub) (i : Nat) (c : Call) (role : Role) (hold : Option Hold) :
    (h.setCall i c).leave? role hold = (h.leave? role hold).setCall i c := by
  cases hold <;> rfl

/-- A call that is released gives back all that it has. -/
theorem releaseAll_eq (h : Hub) (i : Nat) (c : Call) :
    h.releaseAll i c = (h.giveBack c.claims c.awaited?).setCall i
      { c with task := none, readerHold := none, writerHold := none } := by
  unfold releaseAll
  rw [abortTask_eq, leave?_setCall, leave?_setCall, leave?_eq_giveBack, leave?_eq_giveBack,
    ← giveBack_append, ← giveBack_append]
  simp only [setCall, List.set_set]
  rfl

theorem isSeated_releaseAll (hseated : h.IsSeated) (hc : h.calls[i]? = some c) :
    (h.releaseAll i c).IsSeated := by
  rw [releaseAll_eq]
  refine isSeated_giveBack hc hseated ?_ (List.nil_subset _) _
  change c.claims.Perm (c.claims ++ [])
  rw [List.append_nil]

theorem isSeated_dropClient (hseated : h.IsSeated) (hc : h.calls[i]? = some c) :
    (h.dropClient i c).IsSeated := by
  have hcalls : (h.abortTask i c).calls[i]? = some { c with task := none } := by
    rw [abortTask_eq, giveBack_eq]
    exact getElem?_set_of_getElem? hc
  have haborted := isSeated_abortTask hseated hc
  unfold dropClient
  dsimp only
  split
  next body _ =>
    have hsame : ((h.abortTask i c).dropBody body).calls = (h.abortTask i c).calls := by
      cases body <;> rfl
    have hdropped : ((h.abortTask i c).dropBody body).calls[i]? = some { c with task := none } := by
      rw [hsame]
      exact hcalls
    exact (haborted.dropBody body).setCall hdropped rfl rfl
  · exact haborted.setCall hcalls rfl rfl

theorem isSeated_sweep {timeout : Nat} (hseated : h.IsSeated) (hc : h.calls[i]? = some c)
    (hidle : c.task = none) : (h.startSweep i c timeout).2.IsSeated := by
  exact isSeated_keepSweep hc ((hseated.of_idle hc (taskClaim?_of_idle hidle)).closeEach _ _)

theorem seated_resume {claims held : List Claim} {tunnels after : List Tunnel} {s : Sweep}
    {progress : Sweep.Progress} (hseated : Seated (s.claim :: claims) (s.claim :: held) tunnels)
    (hheld : held ⊆ claims) (hresume : s.resume tunnels = some (progress, after)) :
    Seated (progress.claims ++ claims) (progress.claims ++ held) after := by
  unfold Sweep.resume at hresume
  split at hresume
  · cases hresume
  next t ht =>
    have hclosed := hseated.resumeClose hheld ht
    split at hresume
    · cases hresume
    next result closed hclose =>
      rw [hclose] at hclosed
      have heach := Seated.closeEach hclosed s.count s.rest
      rw [Option.some.inj hresume] at heach
      exact heach

theorem CallStep.isSeated {cause : Option CallAction} {next : Hub}
    (hstep : CallStep h i c cause next) (hc : h.calls[i]? = some c) (hseated : h.IsSeated) :
    next.IsSeated := by
  cases hstep with
  | quiet hquiet => exact hseated.quiet hc hquiet
  | use ht huse hquiet =>
      have hused : Seated h.claims h.held _ := Seated.set hseated ht huse.seat_eq
      exact IsSeated.quiet (h := h.setTunnel _ _) hused hc hquiet
  | look ht huse hquiet =>
      have hlooked : Seated h.claims h.held _ := Seated.set hseated ht huse.seat_eq
      exact IsSeated.quiet (h := h.setTunnel _ _) hlooked hc hquiet
  | draw role hidle ht => exact isSeated_draw hseated hc hidle ht rfl rfl rfl rfl
  | acquired htask ht hserving => exact isSeated_acquired hseated hc htask ht hserving
  | close hidle ht =>
      exact isSeated_takeClosing hc ((hseated.of_idle hc (taskClaim?_of_idle hidle)).close ht)
  | closeOn htask ht =>
      have hcall := hseated.of_call hc
      rw [Call.claims_of_task htask rfl, Call.held_of_holding htask rfl rfl] at hcall
      exact isSeated_takeClosing hc (hcall.resumeClose (holds_heldBut_subset h i c) ht)
  | sweep timeout hidle => exact isSeated_sweep hseated hc hidle
  | sweepOn htask hresume =>
      have hcall := hseated.of_call hc
      rw [Call.claims_of_task htask rfl, Call.held_of_holding htask rfl rfl] at hcall
      exact isSeated_keepSweep hc (seated_resume hcall (holds_heldBut_subset h i c) hresume)
  | @keepSweeping _ _ s after hfree hquiet =>
      have hmore : { h with sweepers := h.sweepers ++ [s] }.IsSeated := by
        unfold IsSeated claims held at hseated ⊢
        simp only [List.flatMap_append, List.flatMap_singleton, Sweeper.claims, hfree,
          Option.map_none, Option.toList_none, List.append_nil]
        exact hseated
      exact hmore.quiet hc hquiet
  | stopSweeping =>
      let ask : Sweeper → Sweeper := fun s =>
        if s.owner = i then { s with isStopping := true } else s
      have hask : (fun s => (ask s).claims) = Sweeper.claims := by
        funext s
        unfold ask
        split <;> rfl
      have hasked : { h with sweepers := h.sweepers.map ask }.IsSeated := by
        unfold IsSeated claims held at hseated ⊢
        rw [List.flatMap_map, hask]
        exact hseated
      exact hasked.setCall hc rfl rfl
  | upload hopen => exact hseated.setCall hc rfl rfl
  | request hidle hfirst hstarts => exact hstarts.isSeated hseated hc hidle
  | handle htask ht hstep => exact isSeated_handle hseated hc htask ht hstep
  | take hs htake hquiet => exact (hseated.setOutlet hs _).quiet hc hquiet
  | abort => exact isSeated_abortTask hseated hc
  | release => exact isSeated_releaseAll hseated hc
  | drop => exact isSeated_dropClient hseated hc

/-! ## What streams and sweepers do -/

/-- Streams and sweepers hold all their tickets. One of them may come to have others if the
seats fit, while the calls keep theirs. -/
theorem IsSeated.replace {next : Hub} {own own' others : List Claim} (hseated : h.IsSeated)
    (hcalls : next.calls = h.calls)
    (hbefore : (h.streams.flatMap Stream.claims ++ h.sweepers.flatMap Sweeper.claims).Perm
      (own ++ others))
    (hafter : (next.streams.flatMap Stream.claims ++ next.sweepers.flatMap Sweeper.claims).Perm
      (own' ++ others))
    (hstep : ∀ claims held, held ⊆ claims → Seated (own ++ claims) (own ++ held) h.tunnels →
      Seated (own' ++ claims) (own' ++ held) next.tunnels) : next.IsSeated := by
  have hsplit {front all : List Claim} (left : List Claim) (hall : all.Perm (front ++ others)) :
      (left ++ all).Perm (front ++ (left ++ others)) :=
    (hall.append_left left).trans (List.perm_append_comm_assoc _ _ _)
  have hnext := hstep (h.calls.flatMap Call.claims ++ others) (h.calls.flatMap Call.held ++ others)
    (held_append_subset h.calls others)
    (hseated.congr (hsplit _ hbefore).symm (hsplit _ hbefore).symm.subset)
  unfold IsSeated claims held
  rw [hcalls]
  exact hnext.congr (hsplit _ hafter) (hsplit _ hafter).subset

theorem isSeated_setStream {j : Nat} {s s' : Stream} {registry : Registry} {tunnels : List Tunnel}
    (hs : h.streams[j]? = some s)
    (hseated : ∀ claims held, held ⊆ claims →
      Seated (s.claims ++ claims) (s.claims ++ held) h.tunnels →
      Seated (s'.claims ++ claims) (s'.claims ++ held) tunnels)
    (hbefore : h.IsSeated) :
    { h with registry, tunnels, streams := h.streams.set j s' }.IsSeated := by
  have hsplit {streams own : List Claim}
      (hstreams : streams.Perm (own ++ (h.streams.eraseIdx j).flatMap Stream.claims)) :
      (streams ++ h.sweepers.flatMap Sweeper.claims).Perm
        (own ++ ((h.streams.eraseIdx j).flatMap Stream.claims ++
          h.sweepers.flatMap Sweeper.claims)) := by
    rw [← List.append_assoc]
    exact hstreams.append_right _
  exact hbefore.replace rfl (hsplit (flatMap_perm_of_getElem? hs Stream.claims))
    (hsplit (flatMap_set_perm_of_getElem? hs s' Stream.claims)) hseated

theorem isSeated_resumeStream {next : Hub} {j : Nat} (hseated : h.IsSeated)
    (hnext : h.resumeStream j = some next) : next.IsSeated := by
  obtain ⟨s, s', t, after, hs, ht, hstep, rfl⟩ := streamStep_resumeStream hnext
  refine isSeated_setStream hs ?_ hseated
  intro claims held hheld hstream
  exact hstream.stream hstep hheld ht

theorem isSeated_setSweeper {k : Nat} {s s' : Sweeper} {registry : Registry}
    {tunnels : List Tunnel} (hs : h.sweepers[k]? = some s)
    (hseated : ∀ claims held, held ⊆ claims →
      Seated (s.claims ++ claims) (s.claims ++ held) h.tunnels →
      Seated (s'.claims ++ claims) (s'.claims ++ held) tunnels)
    (hbefore : h.IsSeated) :
    { h with registry, tunnels, sweepers := h.sweepers.set k s' }.IsSeated := by
  have hsplit {sweepers own : List Claim}
      (hsweepers : sweepers.Perm (own ++ (h.sweepers.eraseIdx k).flatMap Sweeper.claims)) :
      (h.streams.flatMap Stream.claims ++ sweepers).Perm
        (own ++ (h.streams.flatMap Stream.claims ++
          (h.sweepers.eraseIdx k).flatMap Sweeper.claims)) :=
    (hsweepers.append_left _).trans (List.perm_append_comm_assoc _ _ _)
  exact hbefore.replace rfl (hsplit (flatMap_perm_of_getElem? hs Sweeper.claims))
    (hsplit (flatMap_set_perm_of_getElem? hs s' Sweeper.claims)) hseated

theorem claims_keep (s : Sweeper) (progress : Sweep.Progress) :
    (s.keep progress).claims = progress.claims := by
  cases progress <;> rfl

theorem seated_sweeper {claims held : List Claim} {clock now : Nat} {s s' : Sweeper}
    {registry registry' : Registry} {tunnels after : List Tunnel}
    (hstep : s.Step clock now registry tunnels s' registry' after)
    (hheld : held ⊆ claims) (hseated : Seated (s.claims ++ claims) (s.claims ++ held) tunnels) :
    Seated (s'.claims ++ claims) (s'.claims ++ held) after := by
  cases hstep with
  | @resumes sweep progress _ _ hsweep hresume =>
      have hsplit : s.claims = [sweep.claim] := by simp [Sweeper.claims, hsweep]
      rw [hsplit] at hseated
      rw [claims_keep]
      exact seated_resume hseated hheld hresume
  | stops _ _ _ => exact hseated
  | sweeps _ hsweep _ _ =>
      have hfree : s.claims = [] := by simp [Sweeper.claims, hsweep]
      rw [hfree] at hseated
      rw [claims_keep]
      exact Seated.closeEach hseated _ _

theorem isSeated_resumeSweeper {next : Hub} {k : Nat} (hseated : h.IsSeated)
    (hnext : h.resumeSweeper k = some next) : next.IsSeated := by
  obtain ⟨s, s', registry, tunnels, hs, hstep, rfl⟩ := sweeperStep_resumeSweeper hnext
  exact isSeated_setSweeper hs
    (fun _ _ hheld hsweeper => seated_sweeper hstep hheld hsweeper) hseated

theorem isSeated_resume {next : Hub} {agent : Agent} (hseated : h.IsSeated)
    (hnext : h.resume agent = some next) : next.IsSeated := by
  cases agent with
  | call i =>
      obtain ⟨c, hc, hstep⟩ := callStep_resumeCall hnext
      exact hstep.isSeated hc hseated
  | stream j => exact isSeated_resumeStream hseated hnext
  | sweeper k => exact isSeated_resumeSweeper hseated hnext

/-! ## What is done from outside -/

theorem isSeated_withCall (hseated : h.IsSeated) (name : String) :
    (h.withCall name).2.IsSeated := by
  unfold withCall
  split
  · exact hseated
  · unfold IsSeated claims held at hseated ⊢
    simp only [List.flatMap_append, List.flatMap_singleton]
    exact hseated.congr (by simp [Call.claims, Call.taskClaim?, Call.holds])
      (by simp [Call.held, Call.holds])

theorem getElem?_append_singleton {α : Type} {l : List α} {a b : α} {j : Nat}
    (hget : (l ++ [a])[j]? = some b) : l[j]? = some b ∨ (l[j]? = none ∧ b = a) := by
  rcases Nat.lt_or_ge j l.length with hlt | hge
  · rw [List.getElem?_append_left hlt] at hget
    exact Or.inl hget
  · rw [List.getElem?_append_right hge, List.getElem?_singleton] at hget
    refine Or.inr ⟨List.getElem?_eq_none_iff.mpr hge, ?_⟩
    split at hget
    · exact (Option.some.inj hget).symm
    · cases hget

theorem ticketsAt_addTunnel {tunnels : List Tunnel} {t : Tunnel} (hfree : ∀ role, t.seat role = {})
    (role : Role) (number : Nat) :
    ticketsAt (tunnels ++ [t]) role number = ticketsAt tunnels role number := by
  unfold ticketsAt
  cases hget : (tunnels ++ [t])[number]? with
  | none =>
      rw [List.getElem?_eq_none_iff, List.length_append] at hget
      have hout : tunnels.length ≤ number := by omega
      rw [List.getElem?_eq_none_iff.mpr hout]
  | some found =>
      rcases getElem?_append_singleton hget with hold | ⟨hnone, rfl⟩
      · rw [hold]
      · rw [hnone]
        dsimp only
        rw [hfree]
        rfl

/-- A new tunnel has free seats. -/
theorem isSeated_addTunnel (hseated : h.IsSeated) {t : Tunnel} (hfree : ∀ role, t.seat role = {}) :
    { h with tunnels := h.tunnels ++ [t] }.IsSeated where
  ordered := by
    intro number found hfound role
    rcases getElem?_append_singleton hfound with hold | ⟨_, rfl⟩
    · exact hseated.ordered number found hold role
    · rw [hfree]
      exact Seat.ordered_empty
  balanced := by
    intro x
    rw [ticketsAt_addTunnel hfree]
    exact hseated.balanced x
  held_subset := hseated.held_subset
  served := by
    intro x hx
    obtain ⟨found, hfound, hserving⟩ := hseated.served x hx
    refine ⟨found, ?_, hserving⟩
    rw [List.getElem?_append_left (List.getElem?_eq_some_iff.mp hfound).1, hfound]

theorem isSeated_modify (hseated : h.IsSeated) (number : Nat) {f : Tunnel → Tunnel}
    (hf : ∀ t role, (f t).seat role = t.seat role) :
    { h with tunnels := h.tunnels.modify number f }.IsSeated :=
  Seated.modify hseated number hf

theorem isSeated_apply (hseated : h.IsSeated) (action : Action) : (h.apply action).2.IsSeated := by
  cases action with
  | «open» identity idleTimeout manner arrivals =>
      exact isSeated_addTunnel hseated fun role => by cases role <;> rfl
  | feed number arrivals => exact isSeated_modify hseated number fun t role => by cases role <;> rfl
  | setManner number manner =>
      exact isSeated_modify hseated number fun t role => by cases role <;> rfl
  | describe number shownAs =>
      unfold apply
      dsimp only
      split <;> exact hseated
  | put identity number =>
      unfold apply
      dsimp only
      split <;> exact hseated
  | get identity => exact hseated
  | remove identity => exact hseated
  | advance time => exact hseated
  | call name action =>
      have hwith := isSeated_withCall hseated name
      rcases callStep_apply h name action with heq | ⟨c, hc, hstep⟩
      · rw [heq]
        exact hwith
      · exact hstep.isSeated hc hwith

theorem isSeated_withoutNews (hseated : h.IsSeated) : h.withoutNews.IsSeated := by
  unfold IsSeated claims held withoutNews at *
  simp only [List.flatMap_map]
  exact hseated

/-- Every move keeps the seats and the tickets together. -/
theorem isSeated_after? {next : Hub} {move : Move} (hseated : h.IsSeated)
    (hmove : h.after? move = some next) : next.IsSeated := by
  cases move with
  | act action =>
      cases hmove
      exact isSeated_apply hseated action
  | go agent => exact isSeated_resume hseated hmove
  | takeNews =>
      cases hmove
      exact isSeated_withoutNews hseated

theorem isSeated_empty : ({} : Hub).IsSeated where
  ordered := by
    intro number t ht
    cases ht
  balanced := fun x => by simp [ticketsAt, claims]
  held_subset := fun x hx => hx
  served := by
    intro x hx
    cases hx

/-- Along every run, whoever acts as the holder of a seat is the one that is served. -/
theorem isSeated_of_reaches {finish : Hub} (hrun : Reaches {} finish) : finish.IsSeated :=
  hrun.invariant isSeated_empty fun _ _ _ hseated hmove => isSeated_after? hseated hmove

end Hub

end LongPollTunnel

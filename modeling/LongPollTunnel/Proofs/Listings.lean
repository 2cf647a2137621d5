import LongPollTunnel.Proofs.Streaming
import LongPollTunnel.Proofs.TakingDown

/-! # What is registered, open, and still to be closed

A move registers a tunnel, takes one down, or sweeps: what a sweep takes out of the registry
it closes at once or keeps as yet to close. Main statement: where tunnels are registered by
requests only, and no sweep is dropped, no move does anything else to the registry or to an
open tunnel.
-/

namespace LongPollTunnel

/-! ## Tunnels -/

/-- The tunnel has the identity it had, and is open if it was. -/
structure Tunnel.Stands (t after : Tunnel) : Prop where
  identity : after.identity = t.identity
  isOpen : after.isOpen = t.isOpen

namespace Tunnel

variable {t after last : Tunnel} {number : Nat}

theorem stands_refl (t : Tunnel) : t.Stands t :=
  ⟨rfl, rfl⟩

theorem Stands.trans (hfirst : t.Stands after) (hsecond : after.Stands last) : t.Stands last :=
  ⟨hsecond.identity.trans hfirst.identity, hsecond.isOpen.trans hfirst.isOpen⟩

/-- Nothing that is done to the sink closes the tunnel. -/
theorem SameButSink.stands (hsame : t.SameButSink after) : t.Stands after :=
  ⟨hsame.identity_eq, hsame.isOpen_eq⟩

theorem stands_draw (t : Tunnel) (role : Role) : t.Stands (t.draw role).2 :=
  ⟨identity_draw _ _, isOpen_draw _ _⟩

/-- Giving a seat back does not close the tunnel either. -/
theorem stands_leave (t : Tunnel) (role : Role) (ticket : Nat) : t.Stands (t.leave role ticket) :=
  ⟨identity_leave _ _ _, isOpen_leave _ _ _⟩

theorem stands_unqueue (t : Tunnel) (role : Role) : t.Stands (t.unqueue role) :=
  ⟨rfl, rfl⟩

/-- A closed tunnel is still the same one. -/
theorem identity_close (t : Tunnel) : t.close.2.identity = t.identity :=
  (Becomes.close t : t.Becomes .none _).identity_eq

/-- A close that goes on finds the flag cleared and leaves it so. -/
theorem stands_resumeClose (t : Tunnel) (ticket : Nat) : t.Stands (t.resumeClose ticket).2 :=
  ⟨(Becomes.resumeClose ticket : t.Becomes .none _).identity_eq, isOpen_resumeClose _⟩

theorem stands_readSome (t : Tunnel) (expired : Bool) : t.Stands (t.readSome expired).2 :=
  ⟨rfl, rfl⟩

/-- Nobody who uses a tunnel closes it. -/
theorem Use.stands {task : Option Task} (huse : t.Use number task after) : t.Stands after := by
  cases huse with
  | look => exact ⟨rfl, rfl⟩
  | readSome deadline expired => exact t.stands_readSome expired
  | readInstruction => exact ⟨rfl, rfl⟩
  | write => exact (sameButSink_of_writeAll rfl).stands
  | flush hflush => exact (sameButSink_flush? hflush).stands
  | shutdown hshutdown => exact (sameButSink_shutdown? hshutdown).stands

end Tunnel

/-- Every tunnel keeps its number and its identity, and those with the numbers that were
reached are closed, and no others. -/
def Closes (reached : List Nat) (tunnels after : List Tunnel) : Prop :=
  ∀ (number : Nat) (t : Tunnel), tunnels[number]? = some t →
    ∃ t' : Tunnel, after[number]? = some t' ∧ t'.identity = t.identity ∧
      t'.isOpen = (t.isOpen && !reached.contains number)

namespace Closes

variable {reached reached' : List Nat} {tunnels after last : List Tunnel} {number : Nat}
  {t t' : Tunnel}

theorem refl (tunnels : List Tunnel) : Closes [] tunnels tunnels :=
  fun _ t ht => ⟨t, ht, rfl, by simp⟩

theorem trans (hfirst : Closes reached tunnels after) (hsecond : Closes reached' after last) :
    Closes (reached ++ reached') tunnels last := by
  intro number t ht
  obtain ⟨t', ht', hidentity, hopen⟩ := hfirst number t ht
  obtain ⟨t'', ht'', hidentity', hopen'⟩ := hsecond number t' ht'
  refine ⟨t'', ht'', hidentity'.trans hidentity, ?_⟩
  rw [hopen', hopen, Bool.and_assoc, List.contains_append, Bool.not_or]

/-- It is enough to look at the tunnel that is put in. -/
theorem set_of (ht : tunnels[number]? = some t) (hidentity : t'.identity = t.identity)
    (hopen : t'.isOpen = (t.isOpen && !reached.contains number))
    (hothers : ∀ other, other ≠ number → reached.contains other = false) :
    Closes reached tunnels (tunnels.set number t') := by
  intro other found hfound
  by_cases heq : number = other
  · subst heq
    rw [ht] at hfound
    cases hfound
    exact ⟨t', getElem?_set_of_getElem? ht, hidentity, hopen⟩
  · refine ⟨found, ?_, rfl, ?_⟩
    · rw [List.getElem?_set_ne heq, hfound]
    · rw [hothers other (Ne.symm heq)]
      simp

theorem set (ht : tunnels[number]? = some t) (hstands : t.Stands t') :
    Closes [] tunnels (tunnels.set number t') :=
  set_of ht hstands.identity (by simp [hstands.isOpen]) fun _ _ => rfl

/-- Closing one tunnel closes that one only. -/
theorem set_closed (ht : tunnels[number]? = some t) (hidentity : t'.identity = t.identity)
    (hclosed : t'.isOpen = false) : Closes [number] tunnels (tunnels.set number t') :=
  set_of ht hidentity (by simp [hclosed]) fun other hne => by simp [hne]

theorem modify {f : Tunnel → Tunnel} (hf : ∀ t : Tunnel, t.Stands (f t)) :
    Closes [] tunnels (tunnels.modify number f) := by
  cases ht : tunnels[number]? with
  | none =>
      rw [List.modify_eq_self (List.getElem?_eq_none_iff.mp ht)]
      exact refl tunnels
  | some t =>
      rw [modify_eq_set_of_getElem? _ ht]
      exact set ht (hf t)

/-- A new tunnel changes nothing for the others. -/
theorem append (tunnels : List Tunnel) (t : Tunnel) : Closes [] tunnels (tunnels ++ [t]) := by
  intro number found hfound
  refine ⟨found, ?_, rfl, by simp⟩
  rw [List.getElem?_append_left (List.getElem?_eq_some_iff.mp hfound).1, hfound]

theorem leaveEach (h : Hub) (claims : List Claim) :
    Closes [] h.tunnels (h.leaveEach claims).tunnels := by
  induction claims generalizing h with
  | nil => exact refl _
  | cons x rest ih =>
      have hleft : Closes [] h.tunnels (h.leave x.role ⟨x.tunnel, x.ticket⟩).tunnels :=
        modify fun t => t.stands_leave x.role x.ticket
      exact hleft.trans (ih _)

/-- Nothing is closed by giving seats back. -/
theorem giveBack (h : Hub) (claims : List Claim) (awaited : Option Claim) :
    Closes [] h.tunnels (h.giveBack claims awaited).tunnels := by
  have hunqueued : Closes [] h.tunnels (h.unqueue? awaited).tunnels := by
    cases awaited with
    | none => exact refl _
    | some x => exact modify fun t => t.stands_unqueue x.role
  exact hunqueued.trans (leaveEach _ claims)

end Closes

/-! ## Sweeps -/

/-- The tunnels that the sweep has yet to close. -/
def Sweep.Progress.toClose : Sweep.Progress → List Nat
  | .done _ => []
  | .waiting sweep => sweep.rest

/-- A sweep closes its tunnels in turn up to the one that it has to wait for. -/
theorem Closes.closeEach (count : Nat) (numbers : List Nat) (tunnels : List Tunnel) :
    ∃ reached, numbers = reached ++ (Sweep.closeEach count numbers tunnels).1.toClose ∧
      Closes reached tunnels (Sweep.closeEach count numbers tunnels).2 := by
  induction numbers generalizing tunnels with
  | nil => exact ⟨[], rfl, .refl tunnels⟩
  | cons number rest ih =>
      unfold Sweep.closeEach
      split
      next hnone =>
        -- nothing is there to close
        obtain ⟨reached, hsplit, hcloses⟩ := ih tunnels
        refine ⟨number :: reached, by rw [List.cons_append, ← hsplit], ?_⟩
        intro other t ht
        obtain ⟨t', ht', hidentity, hopen⟩ := hcloses other t ht
        have hne : other ≠ number := by
          rintro rfl
          rw [ht] at hnone
          cases hnone
        refine ⟨t', ht', hidentity, ?_⟩
        rw [hopen, List.contains_cons, beq_false_of_ne hne, Bool.false_or]
      next t ht =>
        have hclosed : Closes [number] tunnels (tunnels.set number t.close.2) :=
          .set_closed ht t.identity_close t.isOpen_close
        split
        next result t' hclose =>
          rw [hclose] at hclosed
          obtain ⟨reached, hsplit, hcloses⟩ := ih (tunnels.set number t')
          exact ⟨number :: reached, by rw [List.cons_append, ← hsplit], hclosed.trans hcloses⟩
        next ticket t' hclose =>
          rw [hclose] at hclosed
          exact ⟨[number], rfl, hclosed⟩

/-- A sweep that goes on closes its tunnels up to the next one that it has to wait for. -/
theorem Closes.resume {s : Sweep} {progress : Sweep.Progress} {tunnels after : List Tunnel}
    (hresume : s.resume tunnels = some (progress, after)) :
    ∃ reached, s.rest = reached ++ progress.toClose ∧ Closes reached tunnels after := by
  unfold Sweep.resume at hresume
  split at hresume
  · cases hresume
  next t ht =>
    have hstands := t.stands_resumeClose s.ticket
    split at hresume
    · cases hresume
    next result t' hclose =>
      rw [hclose] at hstands
      obtain ⟨reached, hsplit, hcloses⟩ :=
        Closes.closeEach s.count s.rest (tunnels.set s.tunnel t')
      rw [Option.some.inj hresume] at hsplit hcloses
      exact ⟨reached, hsplit, (Closes.set ht hstands).trans hcloses⟩

/-! ## Registries -/

namespace Registry

/-- The registered identities with the numbers of their tunnels. -/
def listed (r : Registry) : List (String × Nat) :=
  r.entries.map fun e => (e.identity, e.tunnel)

theorem listed_erase (r : Registry) (identity : String) :
    (r.erase identity).listed = r.listed.filter (·.1 ≠ identity) := by
  simp only [listed, erase, List.filter_map, Function.comp_def]

/-- Registering under an identity takes out what stood there. -/
theorem listed_put (r : Registry) (identity : String) (number now : Nat) :
    (r.put identity number now).listed =
      r.listed.filter (·.1 ≠ identity) ++ [(identity, number)] := by
  rw [← listed_erase]
  exact List.map_append

/-- That an entry is used does not show in the list. -/
theorem listed_touch (r : Registry) (identity : String) (now : Nat) :
    (r.touch identity now).listed = r.listed := by
  simp only [listed, touch, List.map_map]
  refine List.map_congr_left fun e _ => ?_
  simp only [Function.comp_apply]
  split <;> rfl

/-- A sweep splits what is listed into what it takes out and what stays. -/
theorem listed_sweep (r : Registry) (tunnels : List Tunnel) (now timeout : Nat) :
    ∃ taken, (r.sweep tunnels now timeout).1.map (·.tunnel) = taken.map Prod.snd ∧
      r.listed.Perm ((r.sweep tunnels now timeout).2.listed ++ taken) := by
  let expires : Entry → Bool := fun e => judge tunnels now timeout e = .expire
  refine ⟨(r.entries.filter expires).map fun e => (e.identity, e.tunnel), ?_, ?_⟩
  · simp only [sweep, List.map_map]
    rfl
  · have hstays : (r.sweep tunnels now timeout).2.listed =
        (r.entries.filter fun e => !expires e).map fun e => (e.identity, e.tunnel) := by
      simp only [listed, sweep, List.map_map, expires, ← decide_not]
      refine List.map_congr_left fun e _ => ?_
      simp only [Function.comp_apply]
      split <;> rfl
    rw [hstays, ← List.map_append]
    exact ((List.filter_append_perm expires r.entries).symm.trans List.perm_append_comm).map _

/-- What is found is listed. -/
theorem mem_listed_of_find? {r : Registry} {identity : String} {number : Nat}
    (hfound : r.find? identity = some number) : (identity, number) ∈ r.listed := by
  obtain ⟨e, he, rfl⟩ := Option.map_eq_some_iff.mp hfound
  have hidentity : e.identity = identity := by simpa using List.find?_some he
  rw [← hidentity]
  exact List.mem_map_of_mem (List.mem_of_find?_eq_some he)

end Registry

/-- What a new sweep takes out it closes, or has yet to close. -/
theorem Sweep.start_splits (r : Registry) (tunnels : List Tunnel) (now timeout : Nat) :
    ∃ taken reached, r.listed.Perm ((start r tunnels now timeout).2.1.listed ++ taken) ∧
      Closes reached tunnels (start r tunnels now timeout).2.2 ∧
      taken.map Prod.snd = reached ++ (start r tunnels now timeout).1.toClose := by
  obtain ⟨taken, hexpired, hlisted⟩ := r.listed_sweep tunnels now timeout
  obtain ⟨reached, hsplit, hcloses⟩ := Closes.closeEach (r.sweep tunnels now timeout).1.length
    ((r.sweep tunnels now timeout).1.map (·.tunnel)) tunnels
  exact ⟨taken, reached, hlisted, hcloses, hexpired.symm.trans hsplit⟩

/-- A request leaves the registry and the standing of its tunnel alone, or takes the tunnel
down. -/
inductive Registry.Serves (r : Registry) (t : Tunnel) : Registry → Tunnel → Prop where
  | stands {after : Tunnel} (hstands : t.Stands after) : Serves r t r after
  | takesDown {after : Tunnel} (hidentity : after.identity = t.identity)
      (hclosed : after.isOpen = false) : Serves r t (r.erase t.identity.text) after

section

variable {r : Registry} {t : Tunnel}

/-- The handling of a request takes down its own tunnel at most, one case per step. -/
theorem Handling.Step.serves {handling : Handling} {u : Upload} {progress : Handling.Progress}
    {after : Handling.Surroundings} (hstep : handling.Step r t u progress after) :
    r.Serves t after.registry after.tunnel := by
  cases hstep with
  | reads _ => exact .stands (t.stands_unqueue .reader)
  | writes _ => exact .stands t.stands_refl
  | takes _ hwrite => exact .stands (Tunnel.sameButSink_of_writeAll hwrite).stands
  | blocks _ hwrite => exact .stands (Tunnel.sameButSink_of_writeAll hwrite).stands
  | @fails ticket _ _ used _ hfails =>
      have hidentity := hfails.sameButSink.identity_eq
      rw [Handling.failRelay_eq]
      dsimp only
      rw [hidentity]
      refine .takesDown ?_ (Tunnel.isOpen_close _)
      rw [Tunnel.identity_close, Tunnel.identity_leave, hidentity]
  | @finishes ticket used _ _ hflush =>
      have hstands := (Tunnel.sameButSink_flush? hflush).stands
      exact .stands (hstands.trans (used.stands_leave .writer ticket))
  | @closes ticket _ _ _ hclose =>
      have hstands := t.stands_resumeClose ticket
      rw [hclose] at hstands
      exact .stands hstands

namespace Stream

theorem stands_afterTeardown (s : Stream) (failure : Failure) (around : Surroundings) :
    around.tunnel.Stands (s.afterTeardown failure around).1.tunnel := by
  unfold afterTeardown
  split
  · exact around.tunnel.stands_refl
  · exact around.tunnel.stands_leave .reader s.ticket

theorem GoesOn.stands {s s' : Stream} {around after : Surroundings}
    (hgoesOn : s.GoesOn around after s') : around.tunnel.Stands after.tunnel := by
  rcases hgoesOn.tunnel with hsame | hlooked
  · rw [hsame]
    exact around.tunnel.stands_refl
  · rw [hlooked]
    exact ⟨rfl, rfl⟩

/-- A stream that fails takes its tunnel down. -/
theorem serves_fail (s : Stream) (failure : Failure) {read : Tunnel} (hread : t.Stands read) :
    r.Serves t (s.fail failure ⟨r, read⟩).1.registry (s.fail failure ⟨r, read⟩).1.tunnel := by
  have hidentity : (s.fail failure ⟨r, read⟩).1.tunnel.identity = read.identity :=
    (s.becomes_fail failure ⟨r, read⟩ : read.Becomes .none _).identity_eq
  rw [s.registry_fail, hread.identity]
  exact .takesDown (hidentity.trans hread.identity) (s.isOpen_fail failure ⟨r, read⟩)

/-- A stream takes down its own tunnel at most. -/
theorem Step.serves {now : Nat} {s s' : Stream} {after : Surroundings}
    (hstep : s.Step now r t after s') : r.Serves t after.registry after.tunnel := by
  have hread {expired : Bool} {outcome : Outcome Failure (List UInt8)} {read : Tunnel}
      (heq : t.readSome expired = (outcome, read)) : t.Stands read := by
    have hstands := t.stands_readSome expired
    rw [heq] at hstands
    exact hstands
  cases hstep with
  | idles _ heq => exact .stands (hread heq)
  | reads _ heq hwrite =>
      rw [hwrite.registry]
      exact .stands ((hread heq).trans hwrite.stands)
  | waits _ heq => exact .stands (hread heq)
  | fails _ heq => exact s.serves_fail _ (hread heq)
  | flushes _ _ _ hgoesOn =>
      rw [hgoesOn.registry]
      exact .stands hgoesOn.stands
  | leaves _ _ => exact .stands (t.stands_leave .reader s.ticket)
  | loses _ _ _ => exact s.serves_fail _ t.stands_refl
  | @closes failure ticket _ closed _ hclose =>
      have hstands := t.stands_resumeClose ticket
      rw [hclose] at hstands
      rw [s.registry_afterTeardown]
      exact .stands (hstands.trans (s.stands_afterTeardown failure ⟨r, closed⟩))

end Stream

end

/-! ## Who closes and who uses tunnels -/

namespace Task

/-- The tunnels that a task has yet to close. -/
def toClose : Task → List Nat
  | .sweep s => s.rest
  | .acquire _ _ | .readSome _ _ | .readInstruction _ | .write _ _ _ | .flush _ | .shutdown _
  | .close _ | .watch _ | .handle _ _ _ | .readBody _ => []

/-- The tunnel that a task handles a request for. -/
def served : Task → List Nat
  | .handle number _ _ => [number]
  | .acquire _ _ | .readSome _ _ | .readInstruction _ | .write _ _ _ | .flush _ | .shutdown _
  | .close _ | .sweep _ | .watch _ | .readBody _ => []

end Task

namespace Call

def toClose (c : Call) : List Nat :=
  c.task.elim [] Task.toClose

def served (c : Call) : List Nat :=
  c.task.elim [] Task.served

variable {c after : Call}

/-- A task that claims no seat closes nothing for others and handles no request. -/
theorem duties_of_claim?_none (hclaim : c.taskClaim? = none) : c.toClose = [] ∧ c.served = [] := by
  unfold toClose served
  unfold taskClaim? at hclaim
  cases htask : c.task with
  | none => exact ⟨rfl, rfl⟩
  | some task =>
      rw [htask] at hclaim
      cases task <;> first | exact ⟨rfl, rfl⟩ | cases hclaim

theorem Quiet.duties_eq (hquiet : c.Quiet after) :
    after.toClose = c.toClose ∧ after.served = c.served := by
  rcases hquiet.task with hsame | ⟨hbefore, hafter⟩
  · unfold toClose served
    rw [hsame]
    exact ⟨rfl, rfl⟩
  · rw [(duties_of_claim?_none hbefore).1, (duties_of_claim?_none hbefore).2]
    exact duties_of_claim?_none hafter

/-- Who closes a tunnel itself has no other to close. -/
theorem duties_takeClosing (c : Call) (number : Nat) (closing : Tunnel.Closing) :
    (c.takeClosing number closing).toClose = [] ∧ (c.takeClosing number closing).served = [] := by
  cases closing <;> exact ⟨rfl, rfl⟩

/-- A request that is answered is not handled any more. -/
theorem duties_answered (c : Call) (head : Head) (body : Body) (hold : Bool) :
    (c.answered head body hold).toClose = [] ∧ (c.answered head body hold).served = [] := by
  cases hold <;> exact ⟨rfl, rfl⟩

/-- What a sweep has yet to close is up to the call that sweeps. -/
theorem duties_takeSweep (c : Call) (progress : Sweep.Progress) :
    (c.takeSweep progress).toClose = progress.toClose ∧ (c.takeSweep progress).served = [] := by
  cases progress <;> exact ⟨rfl, rfl⟩

end Call

/-- The tunnels that a sweeper has yet to close. -/
def Sweeper.toClose (s : Sweeper) : List Nat :=
  if s.hasStopped then [] else s.sweep.elim [] (·.rest)

theorem Sweeper.toClose_keep {s : Sweeper} (hongoing : s.hasStopped = false)
    (progress : Sweep.Progress) : (s.keep progress).toClose = progress.toClose := by
  cases progress <;> simp [toClose, keep, hongoing, Sweep.Progress.toClose]

namespace Hub

/-- The registered identities with the numbers of their tunnels. -/
def listed (h : Hub) : List (String × Nat) :=
  h.registry.listed

/-- The tunnels that running sweeps took out of the registry and have yet to close. -/
def toClose (h : Hub) : List Nat :=
  h.calls.flatMap Call.toClose ++ h.sweepers.flatMap Sweeper.toClose

/-- The tunnels that requests are handled for. -/
def served (h : Hub) : List Nat :=
  h.calls.flatMap Call.served ++ h.streams.map (·.tunnel)

/-- What a move does to the registry and to the tunnels. `entering` holds of the tunnels that
it may register. -/
inductive Effect (entering : Nat → Prop) (h next : Hub) : Prop where
  /-- A tunnel is registered. -/
  | registers {number : Nat} {t : Tunnel} (hentering : entering number)
      (ht : h.tunnels[number]? = some t)
      (hlisted : next.listed =
        h.listed.filter (·.1 ≠ t.identity.text) ++ [(t.identity.text, number)])
      (hcloses : Closes [] h.tunnels next.tunnels) (htoClose : next.toClose = h.toClose)
      (hserved : next.served ⊆ h.served ++ h.listed.map Prod.snd)
  /-- A tunnel that a request is handled for is taken out and closed. -/
  | takesDown {number : Nat} {t : Tunnel} (hserves : number ∈ h.served)
      (ht : h.tunnels[number]? = some t)
      (hlisted : next.listed = h.listed.filter (·.1 ≠ t.identity.text))
      (hcloses : Closes [number] h.tunnels next.tunnels) (htoClose : next.toClose = h.toClose)
      (hserved : next.served ⊆ h.served ++ h.listed.map Prod.snd)
  /-- What is taken out, and what was yet to close, is closed or is yet to close. -/
  | sweeps (taken : List (String × Nat)) (reached : List Nat)
      (hlisted : h.listed.Perm (next.listed ++ taken))
      (htoClose : (h.toClose ++ taken.map Prod.snd).Perm (next.toClose ++ reached))
      (hcloses : Closes reached h.tunnels next.tunnels)
      (hserved : next.served ⊆ h.served ++ h.listed.map Prod.snd)

/-- What leaves a list of lists at one place may come in there or elsewhere. -/
theorem flatMap_set_append_perm {α β : Type} {l : List α} {i : Nat} {a b : α} {f : α → List β}
    {out back : List β} (hget : l[i]? = some a) (hsame : (f a ++ out).Perm (f b ++ back)) :
    (l.flatMap f ++ out).Perm ((l.set i b).flatMap f ++ back) := by
  generalize hothers : (l.eraseIdx i).flatMap f = others
  have hbefore : (l.flatMap f).Perm (others ++ f a) := by
    rw [← hothers]
    exact (flatMap_perm_of_getElem? hget f).trans List.perm_append_comm
  have hafter : ((l.set i b).flatMap f).Perm (others ++ f b) := by
    rw [← hothers]
    exact (flatMap_set_perm_of_getElem? hget b f).trans List.perm_append_comm
  calc
    (l.flatMap f ++ out).Perm (others ++ f a ++ out) := hbefore.append_right out
    _ = others ++ (f a ++ out) := List.append_assoc _ _ _
    List.Perm _ (others ++ (f b ++ back)) := hsame.append_left others
    _ = others ++ f b ++ back := (List.append_assoc _ _ _).symm
    List.Perm _ ((l.set i b).flatMap f ++ back) := (hafter.append_right back).symm

theorem map_set_of_eq {α β : Type} {l : List α} {j : Nat} {a b : α} {f : α → β}
    (hget : l[j]? = some a) (heq : f b = f a) : (l.set j b).map f = l.map f := by
  obtain ⟨hlt, rfl⟩ := List.getElem?_eq_some_iff.mp hget
  rw [List.map_set, heq, ← List.getElem_map f (h := by simpa using hlt), List.set_getElem_self]

/-- Only the sweep of the call that changes counts. -/
theorem toClose_setCall {h : Hub} {i : Nat} {c after : Call} (hc : h.calls[i]? = some c)
    (hsame : after.toClose = c.toClose) : (h.setCall i after).toClose = h.toClose := by
  unfold toClose setCall
  dsimp only
  rw [flatMap_set_of_eq hc hsame]

theorem served_setCall {h : Hub} {i : Nat} {after : Call} {numbers : List Nat}
    (hserved : h.served ⊆ numbers) (hafter : after.served ⊆ numbers) :
    (h.setCall i after).served ⊆ numbers := by
  obtain ⟨hcalls, hstreams⟩ := List.append_subset.mp hserved
  refine List.append_subset.mpr ⟨?_, hstreams⟩
  intro number hnumber
  obtain ⟨c, hc, hin⟩ := List.mem_flatMap.mp hnumber
  rcases List.mem_or_eq_of_mem_set hc with hold | rfl
  · exact hcalls (List.mem_flatMap_of_mem hold hin)
  · exact hafter hin

theorem served_of_call {h : Hub} {i : Nat} {c : Call} (hc : h.calls[i]? = some c) :
    c.served ⊆ h.served := by
  intro number hnumber
  exact List.mem_append_left _ (List.mem_flatMap_of_mem (List.mem_of_getElem? hc) hnumber)

theorem served_of_stream {h : Hub} {j : Nat} {s : Stream} (hs : h.streams[j]? = some s) :
    s.tunnel ∈ h.served :=
  List.mem_append_right _ (List.mem_map_of_mem (List.mem_of_getElem? hs))

namespace Effect

variable {entering : Nat → Prop} {h middle next : Hub} {registry : Registry}
  {tunnels : List Tunnel} {streams : List Stream} {i : Nat} {c after : Call}

/-- Nothing is taken out and nothing is closed. -/
theorem keeps (hlisted : next.listed = h.listed) (htoClose : next.toClose = h.toClose)
    (hcloses : Closes [] h.tunnels next.tunnels)
    (hserved : next.served ⊆ h.served ++ h.listed.map Prod.snd) : Effect entering h next := by
  refine .sweeps [] [] ?_ ?_ hcloses hserved
  · rw [hlisted, List.append_nil]
  · rw [htoClose]
    exact List.Perm.refl _

theorem of_tunnels (hcloses : Closes [] h.tunnels tunnels) :
    Effect entering h { h with tunnels } :=
  keeps rfl rfl hcloses (List.subset_append_left _ _)

/-- A change that concerns neither the registry, the tunnels nor the sweeps. -/
theorem congr (heffect : Effect entering h middle) (hlisted : next.listed = middle.listed)
    (htoClose : next.toClose = middle.toClose) (htunnels : next.tunnels = middle.tunnels)
    (hserved : next.served ⊆ h.served ++ h.listed.map Prod.snd) : Effect entering h next := by
  cases heffect with
  | registers hentering ht hlisted' hcloses htoClose' _ =>
      refine .registers hentering ht (hlisted.trans hlisted') ?_ (htoClose.trans htoClose') hserved
      rw [htunnels]
      exact hcloses
  | takesDown hserves ht hlisted' hcloses htoClose' _ =>
      refine .takesDown hserves ht (hlisted.trans hlisted') ?_ (htoClose.trans htoClose') hserved
      rw [htunnels]
      exact hcloses
  | sweeps taken reached hlisted' htoClose' hcloses _ =>
      rw [← hlisted] at hlisted'
      rw [← htoClose] at htoClose'
      rw [← htunnels] at hcloses
      exact .sweeps taken reached hlisted' htoClose' hcloses hserved

/-- Requests are handled for tunnels that are or were registered. -/
theorem served_subset (heffect : Effect entering h next) :
    next.served ⊆ h.served ++ h.listed.map Prod.snd := by
  cases heffect with
  | registers _ _ _ _ _ hserved => exact hserved
  | takesDown _ _ _ _ _ hserved => exact hserved
  | sweeps _ _ _ _ _ hserved => exact hserved

/-- A call that changes while it closes the same tunnels has no effect of its own. -/
theorem setCall (heffect : Effect entering h middle) (hc : middle.calls[i]? = some c)
    (htoClose : after.toClose = c.toClose)
    (hserved : after.served ⊆ h.served ++ h.listed.map Prod.snd) :
    Effect entering h (middle.setCall i after) :=
  heffect.congr rfl (toClose_setCall hc htoClose) rfl
    (served_setCall heffect.served_subset hserved)

theorem setStreams (heffect : Effect entering h middle)
    (hstreams : streams.map (·.tunnel) = middle.streams.map (·.tunnel)) :
    Effect entering h { middle with streams } := by
  refine heffect.congr rfl rfl rfl ?_
  unfold served
  rw [hstreams]
  exact heffect.served_subset

theorem dropBody (heffect : Effect entering h middle) (body : Body) :
    Effect entering h (middle.dropBody body) := by
  rcases middle.dropBody_cases body with heq | ⟨j, s, hs, heq⟩
  · rw [heq]
    exact heffect
  · rw [heq]
    exact heffect.setStreams (map_set_of_eq hs rfl)

/-- A call that is free of duties comes to be so again. -/
theorem setCall_free (heffect : Effect entering h middle) (hc : middle.calls[i]? = some c)
    (hbefore : c.toClose = []) (hafter : after.toClose = [] ∧ after.served = []) :
    Effect entering h (middle.setCall i after) := by
  refine heffect.setCall hc (hafter.1.trans hbefore.symm) ?_
  rw [hafter.2]
  exact List.nil_subset _

/-- A call keeps its duties. -/
theorem setCall_same (heffect : Effect entering h middle) (hc : middle.calls[i]? = some c)
    (hcall : h.calls[i]? = some c)
    (hsame : after.toClose = c.toClose ∧ after.served = c.served) :
    Effect entering h (middle.setCall i after) := by
  refine heffect.setCall hc hsame.1 ?_
  rw [hsame.2]
  exact List.Subset.trans (served_of_call hcall) (List.subset_append_left _ _)

/-- What the handling of a request or a stream does to its tunnel. -/
theorem of_serves {number : Nat} {t t' : Tunnel} (hserves : number ∈ h.served)
    (ht : h.tunnels[number]? = some t) (hdoes : h.registry.Serves t registry t')
    (hstreams : streams.map (·.tunnel) ⊆ h.served) :
    Effect entering h { h with registry, tunnels := h.tunnels.set number t', streams } := by
  have hserved : h.calls.flatMap Call.served ++ streams.map (·.tunnel) ⊆
      h.served ++ h.listed.map Prod.snd := by
    refine List.Subset.trans ?_ (List.subset_append_left _ _)
    exact List.append_subset.mpr ⟨List.subset_append_left _ _, hstreams⟩
  cases hdoes with
  | stands hstands => exact keeps rfl rfl (.set ht hstands) hserved
  | takesDown hidentity hclosed =>
      exact .takesDown hserves ht (h.registry.listed_erase _) (.set_closed ht hidentity hclosed)
        rfl hserved

/-- The step of a request: it goes on, or takes its tunnel down. -/
theorem of_takeProgress {number : Nat} {hold : Bool} {t : Tunnel} {handling : Handling}
    {progress : Handling.Progress} {around : Handling.Surroundings}
    (hc : h.calls[i]? = some c) (htask : c.task = some (.handle number handling hold))
    (ht : h.tunnels[number]? = some t)
    (hstep : handling.Step h.registry t c.upload progress around) :
    Effect entering h (h.takeProgress i c number hold progress around) := by
  have hbefore : c.toClose = [] := by simp [Call.toClose, htask, Task.toClose]
  have hserves : number ∈ h.served := served_of_call hc (by simp [Call.served, htask, Task.served])
  have hstreams : h.streams.map (·.tunnel) ⊆ h.served := List.subset_append_right _ _
  cases progress with
  | goOn handling' =>
      refine (of_serves hserves ht hstep.serves hstreams).setCall hc hbefore.symm ?_
      exact List.cons_subset.mpr ⟨List.mem_append_left _ hserves, List.nil_subset _⟩
  | answer head =>
      exact (of_serves hserves ht hstep.serves hstreams).setCall_free hc hbefore
        (Call.duties_answered _ head .empty hold)
  | stream ticket =>
      refine (of_serves hserves ht hstep.serves ?_).setCall_free hc hbefore
        (Call.duties_answered _ .reading _ hold)
      rw [List.map_append]
      exact List.append_subset.mpr ⟨hstreams,
        List.cons_subset.mpr ⟨hserves, List.nil_subset _⟩⟩

/-- A sweep of a call is started or goes on. -/
theorem of_takeSweep {progress : Sweep.Progress} (taken : List (String × Nat))
    {reached : List Nat} (hc : h.calls[i]? = some c)
    (hlisted : h.listed.Perm (registry.listed ++ taken))
    (hcloses : Closes reached h.tunnels tunnels)
    (hsplit : c.toClose ++ taken.map Prod.snd = reached ++ progress.toClose) :
    Effect entering h ({ h with registry, tunnels }.setCall i (c.takeSweep progress)) := by
  obtain ⟨htoClose, hserved⟩ := c.duties_takeSweep progress
  refine .sweeps taken reached hlisted ?_ hcloses
    (served_setCall (List.subset_append_left _ _) ?_)
  · have hsame : (c.toClose ++ taken.map Prod.snd).Perm
        ((c.takeSweep progress).toClose ++ reached) := by
      rw [hsplit, htoClose]
      exact List.perm_append_comm
    have hcalls := flatMap_set_append_perm hc hsame
    have hswap (first second third : List Nat) :
        (first ++ second ++ third).Perm (first ++ third ++ second) := by
      rw [List.append_assoc, List.append_assoc]
      exact List.perm_append_comm.append_left first
    exact (hswap _ _ _).trans ((hcalls.append_right _).trans (hswap _ _ _))
  · rw [hserved]
    exact List.nil_subset _

/-- A sweep of a sweeper is started or goes on. -/
theorem of_sweeper {k : Nat} {s s' : Sweeper} (taken : List (String × Nat))
    (reached : List Nat) (hs : h.sweepers[k]? = some s)
    (hlisted : h.listed.Perm (registry.listed ++ taken))
    (hcloses : Closes reached h.tunnels tunnels)
    (hsplit : s.toClose ++ taken.map Prod.snd = reached ++ s'.toClose) :
    Effect entering h { h with registry, tunnels, sweepers := h.sweepers.set k s' } := by
  refine .sweeps taken reached hlisted ?_ hcloses (List.subset_append_left _ _)
  have hsame : (s.toClose ++ taken.map Prod.snd).Perm (s'.toClose ++ reached) := by
    rw [hsplit]
    exact List.perm_append_comm
  have hsweepers := flatMap_set_append_perm hs hsame
  unfold toClose
  rw [List.append_assoc, List.append_assoc]
  exact hsweepers.append_left _

end Effect

/-! ## Moves -/

variable {entering : Nat → Prop} {h next : Hub} {i : Nat} {c : Call}

theorem listed_perm_append_nil (h : Hub) : h.listed.Perm (h.registry.listed ++ []) := by
  rw [List.append_nil]
  exact List.Perm.refl _

theorem effect_refl (h : Hub) : Effect entering h h :=
  .keeps rfl rfl (.refl _) (List.subset_append_left _ _)

/-- A request for a new tunnel registers it, and one for an identity is handled for the tunnel
that is registered under it. -/
theorem Starts.effect {r : Request} (hstarts : h.Starts i c r next) (hc : h.calls[i]? = some c)
    (hidle : c.task = none)
    (hentering : ∀ number, Operation.ofQuery r.query = .ok .connect →
      r.connection = .ok number → number < h.tunnels.length → entering number) :
    Effect entering h next := by
  have hbefore : c.toClose = [] := by simp [Call.toClose, hidle]
  cases hstarts with
  | invalid _ => exact (effect_refl h).setCall_free hc hbefore (Call.duties_answered _ _ _ _)
  | uncreated _ _ => exact (effect_refl h).setCall_free hc hbefore (Call.duties_answered _ _ _ _)
  | absent _ _ _ => exact (effect_refl h).setCall_free hc hbefore (Call.duties_answered _ _ _ _)
  | @created number t hquery hconnection ht =>
      have hput : Effect entering h
          { h with registry := h.registry.put t.identity.text number h.now } :=
        .registers (hentering number hquery hconnection (List.getElem?_eq_some_iff.mp ht).1) ht
          (h.registry.listed_put _ _ _) (.refl _) rfl (List.subset_append_left _ _)
      exact hput.setCall_free hc hbefore (Call.duties_answered _ _ _ _)
  | @waits operation role identity number t hquery hseeks hfound ht =>
      have hdrawn : Effect entering h
          ({ h with registry := (h.registry.get identity h.now).2 }.setTunnel number
            (t.draw role).2) :=
        .keeps (h.registry.listed_touch _ _) rfl (.set ht (t.stands_draw role))
          (List.subset_append_left _ _)
      refine hdrawn.setCall hc hbefore.symm ?_
      have hlisted : number ∈ h.listed.map Prod.snd :=
        List.mem_map_of_mem (Registry.mem_listed_of_find? hfound)
      exact List.cons_subset.mpr ⟨List.mem_append_right _ hlisted, List.nil_subset _⟩

/-- A task may be dropped that has nothing to close. -/
theorem effect_abortTask (hc : h.calls[i]? = some c) (hbefore : c.toClose = []) :
    Effect entering h (h.abortTask i c) := by
  rw [abortTask_eq, giveBack_eq]
  exact (Effect.of_tunnels (.giveBack h _ _)).setCall_free hc hbefore ⟨rfl, rfl⟩

theorem effect_dropClient (hc : h.calls[i]? = some c) (hbefore : c.toClose = []) :
    Effect entering h (h.dropClient i c) := by
  have hcalls : (h.abortTask i c).calls[i]? = some { c with task := none } := by
    rw [abortTask_eq, giveBack_eq]
    exact getElem?_set_of_getElem? hc
  have haborted : Effect entering h (h.abortTask i c) := effect_abortTask hc hbefore
  unfold dropClient
  dsimp only
  split
  next body _ =>
    have hsame : ((h.abortTask i c).dropBody body).calls = (h.abortTask i c).calls := by
      cases body <;> rfl
    rw [← hsame] at hcalls
    exact (haborted.dropBody body).setCall_free hcalls rfl ⟨rfl, rfl⟩
  · exact haborted.setCall_free hcalls rfl ⟨rfl, rfl⟩

/-- The step lemma for calls, one case per kind of step. -/
theorem CallStep.effect {cause : Option CallAction} (hstep : CallStep h i c cause next)
    (hc : h.calls[i]? = some c) (hclose : ∀ number, cause ≠ some (.close number))
    (hdrops : cause = some .abort ∨ cause = some .release ∨ cause = some .drop → c.toClose = [])
    (hentering : ∀ r number, cause = some (.request r) → c.objection? (.request r) = none →
      Operation.ofQuery r.query = .ok .connect → r.connection = .ok number →
      number < h.tunnels.length → entering number) : Effect entering h next := by
  have htask {task : Task} (htask : c.task = some task) : c.toClose = task.toClose := by
    simp [Call.toClose, htask]
  have hidle (hnone : c.task = none) : c.toClose = [] := by simp [Call.toClose, hnone]
  cases hstep with
  | quiet hquiet => exact (effect_refl h).setCall_same hc hc hquiet.duties_eq
  | use ht huse hquiet =>
      exact (Effect.of_tunnels (.set ht huse.stands)).setCall_same hc hc hquiet.duties_eq
  | look ht huse hquiet =>
      exact (Effect.of_tunnels (.set ht huse.stands)).setCall_same hc hc hquiet.duties_eq
  | @draw number t role hnone ht =>
      exact (Effect.of_tunnels (.set ht (t.stands_draw role))).setCall_free hc (hidle hnone)
        ⟨rfl, rfl⟩
  | @acquired role hold t hacquire ht hserving =>
      rw [unqueue_leave?_eq_giveBack, giveBack_eq]
      exact (Effect.of_tunnels (.giveBack h _ _)).setCall_free hc (htask hacquire) ⟨rfl, rfl⟩
  | close _ _ => exact absurd rfl (hclose _)
  | @closeOn hold t hclosing ht =>
      exact (Effect.of_tunnels (.set ht (t.stands_resumeClose hold.ticket))).setCall_free hc
        (htask hclosing) (c.duties_takeClosing _ _)
  | sweep timeout hnone =>
      obtain ⟨taken, reached, hlisted, hcloses, hsplit⟩ :=
        Sweep.start_splits h.registry h.tunnels h.now timeout
      have hkeep : (h.startSweep i c timeout).2 = _ := keepSweep_eq _ i c _
      rw [hkeep]
      refine .of_takeSweep taken hc hlisted hcloses ?_
      rw [hidle hnone]
      exact hsplit
  | sweepOn hsweep hresume =>
      obtain ⟨reached, hsplit, hcloses⟩ := Closes.resume hresume
      rw [keepSweep_eq]
      refine .of_takeSweep [] hc h.listed_perm_append_nil hcloses ?_
      rw [htask hsweep, List.map_nil, List.append_nil]
      exact hsplit
  | @keepSweeping interval timeout s after hfree hquiet =>
      have hadded : Effect entering h { h with sweepers := h.sweepers ++ [s] } := by
        refine .keeps rfl ?_ (.refl _) (List.subset_append_left _ _)
        simp [toClose, Sweeper.toClose, hfree]
      exact hadded.setCall_same hc hc hquiet.duties_eq
  | stopSweeping =>
      have hasked : Effect entering h { h with
          sweepers := h.sweepers.map fun s =>
            if s.owner = i then { s with isStopping := true } else s } := by
        have hsame (s : Sweeper) :
            (if s.owner = i then { s with isStopping := true } else s).toClose = s.toClose := by
          split <;> rfl
        refine .keeps rfl ?_ (.refl _) (List.subset_append_left _ _)
        simp [toClose, List.flatMap_map, hsame]
      exact hasked.setCall_same hc hc ⟨rfl, rfl⟩
  | upload hopen => exact (effect_refl h).setCall_same hc hc ⟨rfl, rfl⟩
  | @request r next hnone hfirst hstarts =>
      have hobjection : c.objection? (.request r) = none := by
        simp [Call.objection?, hfirst, Call.isBusy, hnone]
      exact hstarts.effect hc hnone fun number => hentering r number rfl hobjection
  | handle hhandle ht hstep => exact .of_takeProgress hc hhandle ht hstep
  | @take index s bytes outlet after hs htake hquiet =>
      have hstreams : (h.streams.set index { s with outlet }).map (·.tunnel) =
          h.streams.map (·.tunnel) := map_set_of_eq hs rfl
      exact ((effect_refl h).setStreams hstreams).setCall_same hc hc hquiet.duties_eq
  | abort => exact effect_abortTask hc (hdrops (Or.inl rfl))
  | release =>
      rw [releaseAll_eq, giveBack_eq]
      exact (Effect.of_tunnels (.giveBack h _ _)).setCall_free hc (hdrops (Or.inr (Or.inl rfl)))
        ⟨rfl, rfl⟩
  | drop => exact effect_dropClient hc (hdrops (Or.inr (Or.inr rfl)))

/-- The step lemma for streams. -/
theorem effect_resumeStream {j : Nat} (hnext : h.resumeStream j = some next) :
    Effect entering h next := by
  obtain ⟨s, s', t, after, hs, ht, hstep, rfl⟩ := streamStep_resumeStream hnext
  refine .of_serves (served_of_stream hs) ht hstep.serves ?_
  rw [map_set_of_eq hs hstep.place.1]
  exact List.subset_append_right _ _

/-- The step lemma for sweepers. -/
theorem effect_resumeSweeper {k : Nat} (hnext : h.resumeSweeper k = some next) :
    Effect entering h next := by
  obtain ⟨s, s', registry, tunnels, hs, hstep, rfl⟩ := sweeperStep_resumeSweeper hnext
  cases hstep with
  | resumes hongoing hsweep hresume =>
      obtain ⟨reached, hsplit, hcloses⟩ := Closes.resume hresume
      refine .of_sweeper [] reached hs h.listed_perm_append_nil hcloses ?_
      rw [Sweeper.toClose_keep hongoing, List.map_nil, List.append_nil]
      simpa [Sweeper.toClose, hongoing, hsweep] using hsplit
  | stops _ hsweep _ =>
      refine .of_sweeper [] [] hs h.listed_perm_append_nil (.refl _) ?_
      simp [Sweeper.toClose, hsweep]
  | sweeps hongoing hsweep _ _ =>
      obtain ⟨taken, reached, hlisted', hcloses, hsplit⟩ :=
        Sweep.start_splits h.registry h.tunnels h.now s.timeout
      refine .of_sweeper taken reached hs hlisted' hcloses ?_
      rw [Sweeper.toClose_keep (s := { s with due := s.due + s.interval }) hongoing]
      simpa [Sweeper.toClose, hsweep] using hsplit

/-- The call that an action under this name concerns. -/
def called? (h : Hub) (name : String) : Option Call :=
  (h.withCall name).2.calls[(h.withCall name).1]?

/-- The tunnel that the connector gives if the move is a request for a new one. -/
def connected? (h : Hub) : Move → Option Nat
  | .act (.call name (.request r)) => do
    let c ← h.called? name
    let number ← r.connection.toOption
    if c.objection? (.request r) = none ∧ Operation.ofQuery r.query = .ok .connect ∧
        number < h.tunnels.length then some number
    else none
  | .act _ | .go _ | .takeNews => none

/-- Nobody but requests and sweeps registers a tunnel, takes one out or closes one, and no
sweep is dropped that has tunnels yet to close. -/
def permits (h : Hub) : Move → Bool
  | .act (.put _ _) | .act (.remove _) | .act (.call _ (.close _)) => false
  | .act (.call name .abort) | .act (.call name .release) | .act (.call name .drop) =>
    (h.called? name).all (·.toClose.isEmpty)
  | .act _ | .go _ | .takeNews => true

theorem toClose_withCall (h : Hub) (name : String) : (h.withCall name).2.toClose = h.toClose := by
  unfold withCall
  split
  · rfl
  · simp [toClose, Call.toClose]

theorem served_withCall (h : Hub) (name : String) : (h.withCall name).2.served = h.served := by
  unfold withCall
  split
  · rfl
  · simp [served, Call.served]

theorem Effect.of_withCall (name : String) (heffect : Effect entering (h.withCall name).2 next) :
    Effect entering h next := by
  have hlisted : (h.withCall name).2.listed = h.listed :=
    congrArg Registry.listed (registry_withCall h name)
  cases heffect with
  | registers hentering ht hlisted' hcloses htoClose hserved =>
      rw [tunnels_withCall] at ht hcloses
      rw [hlisted] at hlisted' hserved
      rw [toClose_withCall] at htoClose
      rw [served_withCall] at hserved
      exact .registers hentering ht hlisted' hcloses htoClose hserved
  | takesDown hserves ht hlisted' hcloses htoClose hserved =>
      rw [tunnels_withCall] at ht hcloses
      rw [hlisted] at hlisted' hserved
      rw [toClose_withCall] at htoClose
      rw [served_withCall] at hserved hserves
      exact .takesDown hserves ht hlisted' hcloses htoClose hserved
  | sweeps taken reached hlisted' htoClose hcloses hserved =>
      rw [tunnels_withCall] at hcloses
      rw [hlisted] at hlisted' hserved
      rw [toClose_withCall] at htoClose
      rw [served_withCall] at hserved
      exact .sweeps taken reached hlisted' htoClose hcloses hserved

/-- The step lemma for what is done from outside. -/
theorem effect_apply (action : Action) (hpermits : h.permits (.act action) = true) :
    Effect (· ∈ h.connected? (.act action)) h (h.apply action).2 := by
  have hrefl : Effect (· ∈ h.connected? (.act action)) h h := effect_refl h
  cases action with
  | «open» identity idleTimeout manner arrivals => exact .of_tunnels (.append _ _)
  | feed number arrivals => exact .of_tunnels (.modify fun t => ⟨rfl, rfl⟩)
  | setManner number manner => exact .of_tunnels (.modify fun t => ⟨rfl, rfl⟩)
  | describe number shownAs =>
      unfold apply
      dsimp only
      split <;> exact hrefl
  | put identity number => cases hpermits
  | get identity =>
      exact .keeps (h.registry.listed_touch _ _) rfl (.refl _) (List.subset_append_left _ _)
  | remove identity => cases hpermits
  | advance time => exact .keeps rfl rfl (.refl _) (List.subset_append_left _ _)
  | call name action =>
      refine .of_withCall name ?_
      rcases callStep_apply h name action with heq | ⟨c, hc, hstep⟩
      · rw [heq]
        exact effect_refl _
      · refine hstep.effect hc ?_ ?_ ?_
        · rintro number heq
          cases heq
          cases hpermits
        · have hdropped (hall : (h.called? name).all (·.toClose.isEmpty) = true) :
              c.toClose = [] := by
            simpa [called?, hc] using hall
          rintro (heq | heq | heq) <;> cases heq <;> exact hdropped hpermits
        · rintro r number heq hobjection hquery hconnection hlt
          cases heq
          rw [tunnels_withCall] at hlt
          have hcalled : h.called? name = some c := hc
          simp [connected?, hcalled, hconnection, Except.toOption, hobjection, hquery, hlt]

/-- Where nobody but requests and sweeps registers, takes out and closes tunnels, a move does
so by one of them. -/
theorem effect_after? {move : Move} (hmove : h.after? move = some next)
    (hpermits : h.permits move = true) : Effect (· ∈ h.connected? move) h next := by
  cases move with
  | act action =>
      cases hmove
      exact effect_apply action hpermits
  | go agent =>
      cases agent with
      | call i =>
          obtain ⟨c, hc, hstep⟩ := callStep_resumeCall hmove
          refine hstep.effect hc ?_ ?_ ?_ <;> simp
      | stream j => exact effect_resumeStream hmove
      | sweeper k => exact effect_resumeSweeper hmove
  | takeNews =>
      cases hmove
      have htoClose : h.withoutNews.toClose = h.toClose := by
        simp only [toClose, withoutNews, List.flatMap_map]
        rfl
      have hserved : h.withoutNews.served = h.served := by
        simp only [served, withoutNews, List.flatMap_map]
        rfl
      refine .keeps rfl htoClose (.refl _) ?_
      rw [hserved]
      exact List.subset_append_left _ _

end Hub

end LongPollTunnel

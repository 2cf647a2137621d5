import LongPollTunnel.Proofs.Carrying
import LongPollTunnel.Proofs.Registered
import LongPollTunnel.Proofs.Sweeping
import LongPollTunnel.Proofs.Turns

/-! # Sweeps among everything else

A sweep may have to wait for each tunnel that it closes, and calls, requests and other sweeps go on
meanwhile. Main statement: in whatever order, a sweep that runs to its end has closed every tunnel
that it took out of the registry and tells how many there were, and it closes no tunnel that a
request was being handled for when it was judged.
-/

namespace LongPollTunnel

/-- The sweep that a task is in the middle of. -/
def Task.sweep? : Task → Option Sweep
  | .sweep s => some s
  | .acquire _ _ | .readSome _ _ | .readInstruction _ | .write _ _ _ | .flush _ | .shutdown _
  | .close _ | .watch _ | .handle _ _ _ | .readBody _ => none

/-- What is left of a sweep. -/
def Sweep.Progress.sweep? : Sweep.Progress → Option Sweep
  | .done _ => none
  | .waiting sweep => some sweep

namespace Hub

/-- The sweep that an agent is in the middle of. -/
def sweepOf? (h : Hub) : Agent → Option Sweep
  | .call i => h.calls[i]?.bind fun c => c.task.bind Task.sweep?
  | .sweeper k => h.sweepers[k]?.bind (·.sweep)
  | .stream _ => none

/-- The agent is through with a sweep of so many tunnels: a call has just been told so. -/
def IsThrough (h : Hub) (agent : Agent) (count : Nat) : Prop :=
  match agent with
  | .call i => ∃ c : Call, h.calls[i]? = some (c.finish (.swept count))
  | .sweeper k => ∃ w : Sweeper, h.sweepers[k]? = some w ∧ w.sweep = none
  | .stream _ => False

/-- The agent is as far with its sweep as this. -/
structure HasCome (h : Hub) (agent : Agent) (progress : Sweep.Progress) : Prop where
  sweep : h.sweepOf? agent = progress.sweep?
  through : ∀ count, progress = .done count → h.IsThrough agent count

variable {h next first last : Hub} {i k number timeout : Nat} {c : Call} {s : Sweep} {w : Sweeper}
  {move : Move} {agent : Agent} {log : List Record} {taken : List Nat} {progress : Sweep.Progress}

theorem sweepOf?_call : h.sweepOf? (.call i) = some s ↔
    ∃ c, h.calls[i]? = some c ∧ c.task = some (.sweep s) := by
  simp only [sweepOf?, Option.bind_eq_some_iff]
  constructor
  · rintro ⟨c, hc, task, htask, hsweep⟩
    cases task with
    | sweep s' =>
        cases hsweep
        exact ⟨c, hc, htask⟩
    | _ => cases hsweep
  · rintro ⟨c, hc, htask⟩
    exact ⟨c, hc, _, htask, rfl⟩

theorem sweepOf?_sweeper : h.sweepOf? (.sweeper k) = some s ↔
    ∃ w, h.sweepers[k]? = some w ∧ w.sweep = some s := by
  simp only [sweepOf?, Option.bind_eq_some_iff]

/-! ## Whose turn it is -/

theorem hasCome_takeSweep (hc : next.calls[i]? = some (c.takeSweep progress)) :
    next.HasCome (.call i) progress := by
  cases progress with
  | done count =>
      refine ⟨?_, ?_⟩
      · simp [sweepOf?, hc, Call.takeSweep, Call.finish, Sweep.Progress.sweep?]
      · rintro _ ⟨⟩
        exact ⟨c, hc⟩
  | waiting s =>
      refine ⟨?_, ?_⟩
      · simp [sweepOf?, hc, Call.takeSweep, Task.sweep?, Sweep.Progress.sweep?]
      · rintro _ ⟨⟩

theorem hasCome_keep (hw : next.sweepers[k]? = some (w.keep progress)) :
    next.HasCome (.sweeper k) progress := by
  cases progress with
  | done count =>
      refine ⟨?_, ?_⟩
      · simp [sweepOf?, hw, Sweeper.keep, Sweep.Progress.sweep?]
      · rintro _ ⟨⟩
        exact ⟨_, hw, rfl⟩
  | waiting s =>
      refine ⟨?_, ?_⟩
      · simp [sweepOf?, hw, Sweeper.keep, Sweep.Progress.sweep?]
      · rintro _ ⟨⟩

/-- How a sweep starts to close what it took out. -/
theorem StartsSweep.eq_start (hstarts : h.StartsSweep move agent timeout)
    (hmove : h.after? move = some next) :
    next.tunnels = (Sweep.start h.registry h.tunnels h.now timeout).2.2 ∧
      next.HasCome agent (Sweep.start h.registry h.tunnels h.now timeout).1 := by
  cases hstarts with
  | @call name c _ hc hidle =>
      have hobjection : c.objection? (.sweep timeout) = none := by
        simp [Call.objection?, Call.isBusy, hidle, CallAction.isRequest]
      have hsame : (h.withCall name).2 = { h with calls := (h.withCall name).2.calls } := by
        unfold withCall
        split <;> rfl
      have hnext : next = ((h.withCall name).2.startSweep (h.withCall name).1 c timeout).2 := by
        cases hmove
        simp [apply, hc, hobjection, applyCall]
      simp only [startSweep, keepSweep_eq] at hnext
      rw [hsame] at hnext hc
      subst hnext
      exact ⟨rfl, hasCome_takeSweep (getElem?_set_of_getElem? hc)⟩
  | @sweeper k w hw hongoing hsweep hstopping hdue =>
      obtain ⟨w', s', registry, tunnels, hw', hstep, rfl⟩ := sweeperStep_resumeSweeper hmove
      rw [hw] at hw'
      cases hw'
      cases hstep with
      | resumes _ hsome _ =>
          rw [hsweep] at hsome
          cases hsome
      | stops _ _ hstop =>
          rw [hstopping] at hstop
          cases hstop
      | sweeps _ _ _ _ => exact ⟨rfl, hasCome_keep (getElem?_set_of_getElem? hw)⟩

/-- How an agent goes on with its sweep. -/
theorem resume_of_sweepOf? (hmove : h.after? (.go agent) = some next)
    (hs : h.sweepOf? agent = some s) :
    ∃ progress, s.resume h.tunnels = some (progress, next.tunnels) ∧
      next.registry = h.registry ∧ next.HasCome agent progress := by
  cases agent with
  | call i =>
      obtain ⟨c, hc, htask⟩ := sweepOf?_call.mp hs
      obtain ⟨c', hc', hstep⟩ := exists_of_bind_eq_some hmove
      rw [hc] at hc'
      cases hc'
      simp only [htask, Option.bind_eq_bind, Option.bind_some] at hstep
      obtain ⟨⟨progress, tunnels⟩, hresume, hend⟩ := exists_of_bind_eq_some hstep
      simp only [keepSweep_eq] at hend
      cases hend
      exact ⟨progress, hresume, rfl, hasCome_takeSweep (getElem?_set_of_getElem? hc)⟩
  | sweeper k =>
      obtain ⟨w, hw, hsweep⟩ := sweepOf?_sweeper.mp hs
      obtain ⟨w', s', registry, tunnels, hw', hstep, rfl⟩ := sweeperStep_resumeSweeper hmove
      rw [hw] at hw'
      cases hw'
      cases hstep with
      | resumes _ hsome hresume =>
          rw [hsweep] at hsome
          cases hsome
          exact ⟨_, hresume, rfl, hasCome_keep (getElem?_set_of_getElem? hw)⟩
      | stops _ hnone _ =>
          rw [hsweep] at hnone
          cases hnone
      | sweeps _ hnone _ _ =>
          rw [hsweep] at hnone
          cases hnone
  | stream j => cases hs

/-- The user of a call in the middle of a sweep can only drop it. -/
theorem CallStep.sweepOf? {action : CallAction} (hstep : CallStep h i c (some action) next)
    (hc : h.calls[i]? = some c) (htask : c.task = some (.sweep s)) :
    next.sweepOf? (.call i) = some s ∨ next.sweepOf? (.call i) = none := by
  have hput {after : Call} (heq : next.calls = h.calls.set i after)
      (hafter : after.task = c.task ∨ after.task = none) :
      next.sweepOf? (.call i) = some s ∨ next.sweepOf? (.call i) = none := by
    have hset : next.calls[i]? = some after := by
      rw [heq]
      exact getElem?_set_of_getElem? hc
    rcases hafter with hsame | hnone
    · exact Or.inl (sweepOf?_call.mpr ⟨after, hset, hsame.trans htask⟩)
    · exact Or.inr (by simp [Hub.sweepOf?, hset, hnone])
  have hquiet {after : Call} (hquiet : c.Quiet after) :
      after.task = c.task ∨ after.task = none := by
    refine hquiet.task.imp_right ?_
    rintro ⟨hclaim, -⟩
    simp [Call.taskClaim?, htask, Task.claim?] at hclaim
  have hbusy (hidle : c.task = none) :
      next.sweepOf? (.call i) = some s ∨ next.sweepOf? (.call i) = none := by
    rw [htask] at hidle
    cases hidle
  cases hstep with
  | quiet hsame => exact hput rfl (hquiet hsame)
  | look _ _ hsame => exact hput rfl (hquiet hsame)
  | keepSweeping _ hsame => exact hput rfl (hquiet hsame)
  | draw _ hidle _ | close hidle _ | sweep _ hidle | request hidle _ _ => exact hbusy hidle
  | stopSweeping => exact hput rfl (Or.inl rfl)
  | upload _ => exact hput rfl (Or.inl rfl)
  | abort => exact hput (calls_abortTask h i c) (Or.inr rfl)
  | release => exact hput (calls_releaseAll h i c) (Or.inr rfl)
  | drop => exact hput (calls_dropClient h i c) (Or.inr rfl)

/-- Unless it goes on itself, an agent in the middle of a sweep is as far with it as it was, or its
user has dropped it. -/
theorem sweepOf?_of_others (hmove : h.after? move = some next) (hother : move ≠ .go agent)
    (hs : h.sweepOf? agent = some s) :
    next.sweepOf? agent = some s ∨ next.sweepOf? agent = none := by
  cases agent with
  | call i =>
      obtain ⟨c, hc, htask⟩ := sweepOf?_call.mp hs
      by_cases hturn : h.turnsTo move i
      · -- it is its user's turn
        match move with
        | .go agent => exact absurd (congrArg Move.go hturn) hother
        | .takeNews => cases hturn
        | .act (.call name action) =>
            cases hmove
            have hcalls := call_withCall hc name
            rcases callStep_apply h name action with heq | ⟨c', hc', hstep⟩
            · rw [heq]
              exact Or.inl (sweepOf?_call.mpr ⟨c, hcalls, htask⟩)
            · change (h.withCall name).1 = i at hturn
              rw [hturn] at hc' hstep
              rw [hcalls] at hc'
              cases hc'
              exact hstep.sweepOf? hcalls htask
        | .act (.open _ _ _ _) | .act (.feed _ _) | .act (.setManner _ _) | .act (.describe _ _)
        | .act (.put _ _) | .act (.get _) | .act (.remove _) | .act (.advance _) => cases hturn
      · obtain ⟨events, hnext⟩ := call_of_others hmove hturn hc
        exact Or.inl (sweepOf?_call.mpr ⟨_, hnext, htask⟩)
  | sweeper k =>
      obtain ⟨w, hw, hsweep⟩ := sweepOf?_sweeper.mp hs
      obtain ⟨_, hnext, _, -, rfl⟩ := sweeper_of_others hmove hother hw
      exact Or.inl (sweepOf?_sweeper.mpr ⟨_, hnext, hsweep⟩)
  | stream j => cases hs

/-! ## Along a run -/

/-- An agent is as far with a sweep that took these tunnels out as it has to show. -/
structure Reaps (h : Hub) (agent : Agent) (taken : List Nat) (progress : Sweep.Progress) :
    Prop where
  come : h.HasCome agent progress
  accounts : progress.Accounts taken h.tunnels
  exist : ∀ number ∈ taken, ∃ t : Tunnel, h.tunnels[number]? = some t

theorem exists_tunnel_after? (hmove : h.after? move = some next)
    (hexists : ∃ t : Tunnel, h.tunnels[number]? = some t) :
    ∃ t : Tunnel, next.tunnels[number]? = some t := by
  obtain ⟨t, ht⟩ := hexists
  obtain ⟨t', ht', -⟩ := becomes_after? hmove ht
  exact ⟨t', ht'⟩

theorem StartsSweep.reaps (hstarts : h.StartsSweep move agent timeout)
    (hmove : h.after? move = some next) :
    next.Reaps agent ((h.registry.sweep h.tunnels h.now timeout).1.map (·.tunnel))
      (Sweep.start h.registry h.tunnels h.now timeout).1 := by
  obtain ⟨htunnels, hcome⟩ := hstarts.eq_start hmove
  refine ⟨hcome, ?_, ?_⟩
  · rw [htunnels]
    exact Sweep.accounts_start _ _ _ _
  · intro number hnumber
    obtain ⟨e, -, ⟨t, ht, -⟩, rfl⟩ := Registry.mem_taken_iff.mp hnumber
    exact exists_tunnel_after? hmove ⟨t, ht⟩

/-- What others do in between undoes nothing. -/
theorem Reaps.of_others (hreaps : h.Reaps agent taken (.waiting s))
    (hmove : h.after? move = some next) (hs : next.sweepOf? agent = some s) :
    next.Reaps agent taken (.waiting s) := by
  refine ⟨⟨hs, nofun⟩, ⟨hreaps.accounts.count, hreaps.accounts.toClose, ?_⟩,
    fun number hnumber => exists_tunnel_after? hmove (hreaps.exist number hnumber)⟩
  intro number hnumber
  refine (hreaps.accounts.closed number hnumber).imp_right ?_
  rintro ⟨t, ht, hclosed⟩
  obtain ⟨t', ht', hbecomes⟩ := becomes_after? hmove ht
  exact ⟨t', ht', hbecomes.isOpen_eq_false hclosed⟩

/-- In all of these moves the agent is in the middle of a sweep, and if the sweep is over after one
of them that is because the agent went on. -/
def StaysAt (agent : Agent) (log : List Record) : Prop :=
  ∀ r ∈ log, (∃ s, r.before.sweepOf? agent = some s) ∧
    (r.after.sweepOf? agent = none → r.move = .go agent)

/-- In one move an agent shows what it has to show of its sweep, or its sweep is dropped. -/
theorem Reaps.after? (hreaps : h.Reaps agent taken progress) (hmove : h.after? move = some next)
    (hs : h.sweepOf? agent = some s) (hstays : next.sweepOf? agent = none → move = .go agent) :
    ∃ progress', next.Reaps agent taken progress' := by
  have hwaits : progress = .waiting s := by
    have hsweep := hreaps.come.sweep
    rw [hs] at hsweep
    cases progress with
    | done _ => cases hsweep
    | waiting s' =>
        cases hsweep
        rfl
  subst hwaits
  by_cases hself : move = .go agent
  · subst hself
    obtain ⟨progress', hresume, -, hcome⟩ := resume_of_sweepOf? hmove hs
    exact ⟨progress', hcome, hreaps.accounts.resume hreaps.exist hresume,
      fun number hnumber => exists_tunnel_after? hmove (hreaps.exist number hnumber)⟩
  · rcases sweepOf?_of_others hmove hself hs with hsame | hnone
    · exact ⟨_, hreaps.of_others hmove hsame⟩
    · exact absurd (hstays hnone) hself

theorem Reaps.run (hreaps : first.Reaps agent taken progress) (hrun : Run first log last)
    (hstays : StaysAt agent log) : ∃ progress', last.Reaps agent taken progress' := by
  induction hrun with
  | nil => exact ⟨progress, hreaps⟩
  | snoc _ hmove ih =>
      obtain ⟨middle, hmiddle⟩ := ih fun r hr => hstays r (List.mem_append_left _ hr)
      obtain ⟨⟨s, hs⟩, hlast⟩ :=
        hstays _ (List.mem_append_right _ (List.mem_singleton_self _))
      exact hmiddle.after? hmove hs hlast

/-- Who is not in the middle of its sweep is through with it. -/
theorem Reaps.through (hreaps : h.Reaps agent taken progress) (hnone : h.sweepOf? agent = none) :
    h.IsThrough agent taken.length ∧ ∀ number ∈ taken, h.isClosedAt number = true := by
  have hsweep := hreaps.come.sweep
  rw [hnone] at hsweep
  cases progress with
  | waiting s => cases hsweep
  | done count =>
      obtain ⟨hcount, hclosed⟩ := hreaps.accounts.of_done
      refine ⟨?_, fun number hnumber => isClosedAt_iff.mpr (hclosed number hnumber)⟩
      rw [← hcount]
      exact hreaps.come.through count rfl

/-! ## Requests -/

/-- A request for the tunnel with this number is being handled or answered. -/
def hasRequestOn (h : Hub) (number : Nat) : Prop :=
  (∃ c ∈ h.calls, ∃ handling hold, c.task = some (.handle number handling hold)) ∨
    ∃ s ∈ h.streams, s.tunnel = number ∧ s.phase ≠ .ended

theorem exists_claim_of_request (hrequest : h.hasRequestOn number) :
    ∃ x ∈ h.claims, x.tunnel = number := by
  rcases hrequest with ⟨c, hc, handling, hold, htask⟩ | ⟨s, hs, rfl, hphase⟩
  · refine ⟨handling.claim number, ?_, rfl⟩
    refine List.mem_append_left _ (List.mem_flatMap.mpr ⟨c, hc, ?_⟩)
    simp [Call.claims, Call.taskClaim?, htask, Task.claim?]
  · refine ⟨⟨.reader, s.tunnel, s.ticket⟩, ?_, rfl⟩
    exact List.mem_append_right _ (List.mem_append_left _
      (List.mem_flatMap.mpr ⟨s, hs, s.mem_claims_of_goesOn hphase⟩))

/-- Where somebody has a ticket, the seat is held. -/
theorem exists_isHeld_of_claim (hseated : h.IsSeated) {x : Claim} (hx : x ∈ h.claims) :
    ∃ t : Tunnel, h.tunnels[x.tunnel]? = some t ∧ (t.seat x.role).isHeld = true := by
  obtain ⟨t, ht, hticket⟩ := hseated.exists_tunnel hx
  refine ⟨t, ht, ?_⟩
  have hordered := hseated.ordered x.tunnel t ht x.role
  cases hserving : (t.seat x.role).serving with
  | some ticket => simp [Seat.isHeld, hserving]
  | none =>
      rw [Seat.tickets, hserving, hordered.waiting_eq_nil hserving] at hticket
      cases hticket

theorem not_mem_taken_of_request (hseated : h.IsSeated) (hrequest : h.hasRequestOn number)
    (hopen : h.isOpenAt number = true) :
    number ∉ (h.registry.sweep h.tunnels h.now timeout).1.map (·.tunnel) := by
  obtain ⟨x, hx, rfl⟩ := exists_claim_of_request hrequest
  obtain ⟨t, ht, hheld⟩ := exists_isHeld_of_claim hseated hx
  obtain ⟨t', ht', htrue⟩ := isOpenAt_iff.mp hopen
  cases ht.symm.trans ht'
  intro htaken
  obtain ⟨e, -, ⟨found, hfound, hdue⟩, heq⟩ := Registry.mem_taken_iff.mp htaken
  rw [heq] at hfound
  cases ht.symm.trans hfound
  rcases hdue with hclosed | ⟨-, hfree, -⟩
  · rw [htrue] at hclosed
    cases hclosed
  · rw [hfree x.role] at hheld
    cases hheld

theorem isOpenAt_of_closes {reached : List Nat} (hcloses : Closes reached h.tunnels next.tunnels)
    (hopen : h.isOpenAt number = true) (hpassed : number ∉ reached) :
    next.isOpenAt number = true := by
  obtain ⟨t, ht, htrue⟩ := isOpenAt_iff.mp hopen
  obtain ⟨t', ht', -, hopen'⟩ := hcloses number t ht
  exact isOpenAt_iff.mpr ⟨t', ht', by simp [hopen', htrue, hpassed]⟩

theorem StartsSweep.isOpenAt (hstarts : h.StartsSweep move agent timeout)
    (hmove : h.after? move = some next) (hopen : h.isOpenAt number = true)
    (hpassed : number ∉ (h.registry.sweep h.tunnels h.now timeout).1.map (·.tunnel)) :
    next.isOpenAt number = true := by
  obtain ⟨htunnels, -⟩ := hstarts.eq_start hmove
  obtain ⟨reached, hsplit, hcloses⟩ := Closes.closeEach
    (h.registry.sweep h.tunnels h.now timeout).1.length
    ((h.registry.sweep h.tunnels h.now timeout).1.map (·.tunnel)) h.tunnels
  have hnext : Closes reached h.tunnels next.tunnels := by
    rw [htunnels]
    exact hcloses
  refine isOpenAt_of_closes hnext hopen ?_
  exact fun hreached => hpassed (hsplit ▸ List.mem_append_left _ hreached)

theorem isOpenAt_of_goesOn (hmove : h.after? (.go agent) = some next)
    (hs : h.sweepOf? agent = some s) (hopen : h.isOpenAt number = true)
    (hpassed : number ∉ s.rest) : next.isOpenAt number = true := by
  obtain ⟨progress, hresume, -, -⟩ := resume_of_sweepOf? hmove hs
  obtain ⟨reached, hsplit, hcloses⟩ := Closes.resume hresume
  refine isOpenAt_of_closes hcloses hopen ?_
  exact fun hreached => hpassed (hsplit ▸ List.mem_append_left _ hreached)

/-- What the sweep of an agent has yet to close is among what all sweeps have. -/
theorem rest_subset_toClose (hmove : h.after? (.go agent) = some next)
    (hs : h.sweepOf? agent = some s) : s.rest ⊆ h.toClose := by
  intro number hnumber
  cases agent with
  | call i =>
      obtain ⟨c, hc, htask⟩ := sweepOf?_call.mp hs
      refine List.mem_append_left _ (List.mem_flatMap_of_mem (List.mem_of_getElem? hc) ?_)
      simpa [Call.toClose, htask, Task.toClose] using hnumber
  | sweeper k =>
      obtain ⟨w, hw, hsweep⟩ := sweepOf?_sweeper.mp hs
      obtain ⟨w', _, _, _, hw', hstep, -⟩ := sweeperStep_resumeSweeper hmove
      cases hw.symm.trans hw'
      have hongoing : w.hasStopped = false := by cases hstep <;> assumption
      refine List.mem_append_right _ (List.mem_flatMap_of_mem (List.mem_of_getElem? hw) ?_)
      simpa [Sweeper.toClose, hongoing, hsweep] using hnumber
  | stream j => cases hs

/-- The move starts a sweep or goes on with one. -/
def Record.sweeps (r : Record) : Prop :=
  (∃ agent timeout, r.before.StartsSweep r.move agent timeout) ∨
    ∃ agent s, r.move = .go agent ∧ r.before.sweepOf? agent = some s

/-- In a service no sweep closes a registered tunnel that a request is being handled for, however
many sweeps are waiting and whenever the request has come. -/
theorem isOpenAt_of_service (hrun : Run {} log last) (hservice : IsService log) {r : Record}
    (hr : r ∈ log) (hsweeps : r.sweeps) (hlisted : number ∈ r.before.listed.map Prod.snd)
    (hrequest : r.before.hasRequestOn number) : r.after.isOpenAt number = true := by
  obtain ⟨pre, post, rfl⟩ := List.append_of_mem hr
  obtain ⟨hbefore, hmove, -⟩ := hrun.record
  have hearlier : IsService pre :=
    ⟨fun r hr => hservice.permits r (List.mem_append_left _ hr),
      fun r hr => hservice.isOpen r (List.mem_append_left _ hr),
      (List.pairwise_append.mp hservice.fresh).1⟩
  have haccounted := (isKept_of_run hbefore hearlier).accounted
  obtain ⟨⟨identity, _⟩, hmem, rfl⟩ := List.mem_map.mp hlisted
  obtain ⟨-, t, ht, -, htrue⟩ := haccounted.listed identity _ hmem
  have hopen := isOpenAt_iff.mpr ⟨t, ht, htrue⟩
  rcases hsweeps with ⟨agent, timeout, hstarts⟩ | ⟨agent, s, hgo, hs⟩
  · exact hstarts.isOpenAt hmove hopen
      (not_mem_taken_of_request (isSeated_of_reaches hbefore.reaches) hrequest hopen)
  · rw [hgo] at hmove
    refine isOpenAt_of_goesOn hmove hs hopen fun hyet => ?_
    exact (haccounted.toClose _ (rest_subset_toClose hmove hs hyet)).2 hlisted

/-- In its own moves an agent in the middle of its sweep leaves the registry alone, and every open
tunnel that the sweep did not take out. -/
theorem Reaps.goesOn (hreaps : first.Reaps agent taken progress) (hrun : Run first log last)
    (hstays : StaysAt agent log) {r : Record} (hr : r ∈ log) (hgo : r.move = .go agent) :
    r.after.registry = r.before.registry ∧ ∀ number, number ∉ taken →
      r.before.isOpenAt number = true → r.after.isOpenAt number = true := by
  obtain ⟨⟨s, hs⟩, -⟩ := hstays r hr
  obtain ⟨pre, post, rfl⟩ := List.append_of_mem hr
  obtain ⟨hbefore, hmove, -⟩ := hrun.record
  obtain ⟨progress', hthen⟩ := hreaps.run hbefore fun r hr =>
    hstays r (List.mem_append_left _ hr)
  have hwaits := hthen.come.sweep
  rw [hs] at hwaits
  rw [hgo] at hmove
  obtain ⟨_, _, hregistry, _⟩ := resume_of_sweepOf? hmove hs
  refine ⟨hregistry, fun number htaken hopen => isOpenAt_of_goesOn hmove hs hopen fun hyet => ?_⟩
  cases progress' with
  | done _ => cases hwaits
  | waiting s' =>
      cases hwaits
      exact htaken (hthen.accounts.toClose number hyet)

/-- Whatever is registered, a sweep takes out what is closed and what is open, not in use and as
old as the timeout; it marks what is in use and leaves the rest. However many closes it then has to
wait for, and whatever goes on meanwhile, once it is through every tunnel that it took out is
closed, and it tells how many they were. It never closes a tunnel that was open and that a request
was being handled for when the sweep began; in a service it closes no registered tunnel that a
request is being handled for at any time. -/
theorem sweep_closes_what_it_took_out :
    (∀ (h first : Hub) (move : Move) (agent : Agent) (timeout : Nat), h.registry.Distinct →
      h.after? move = some first → h.StartsSweep move agent timeout →
        ∃ taken, h.registry.IsSwept h.tunnels h.now timeout taken first.registry ∧
          (∀ log last, Run first log last → StaysAt agent log →
            (∀ r ∈ log, r.move = .go agent → r.after.registry = r.before.registry) ∧
            (last.sweepOf? agent = none → last.IsThrough agent taken.length ∧
              ∀ number ∈ taken, last.isClosedAt number = true)) ∧
          (∀ number, h.IsSeated → h.hasRequestOn number → h.isOpenAt number = true →
            first.isOpenAt number = true ∧
            ∀ log last, Run first log last → StaysAt agent log → ∀ r ∈ log, r.move = .go agent →
              r.before.isOpenAt number = true → r.after.isOpenAt number = true)) ∧
    (∀ log last, Run {} log last → IsService log → ∀ r ∈ log, r.sweeps →
      ∀ number ∈ r.before.listed.map Prod.snd, r.before.hasRequestOn number →
        r.after.isOpenAt number = true) := by
  refine ⟨?_, fun log last hrun hservice r hr hsweeps number hlisted hrequest =>
    isOpenAt_of_service hrun hservice hr hsweeps hlisted hrequest⟩
  intro h first move agent timeout hdistinct hmove hstarts
  have hreaps := hstarts.reaps hmove
  refine ⟨(h.registry.sweep h.tunnels h.now timeout).1.map (·.tunnel), ?_, ?_, ?_⟩
  · rw [hstarts.registry_eq hmove]
    exact Registry.isSwept_sweep hdistinct _ _ _
  · intro log last hrun hstays
    refine ⟨fun r hr hgo => (hreaps.goesOn hrun hstays hr hgo).1, fun hnone => ?_⟩
    obtain ⟨progress, hlast⟩ := hreaps.run hrun hstays
    exact hlast.through hnone
  · intro number hseated hrequest hopen
    have htaken : number ∉ (h.registry.sweep h.tunnels h.now timeout).1.map (·.tunnel) :=
      not_mem_taken_of_request hseated hrequest hopen
    refine ⟨hstarts.isOpenAt hmove hopen htaken, ?_⟩
    intro log last hrun hstays r hr hgo
    exact (hreaps.goesOn hrun hstays hr hgo).2 number htaken

/-- Of four registered tunnels the first is left alone and makes who closes it wait, a request reads
from the second, the third is closed, and the last is registered some time after the others. -/
def fourRegistered : List Move :=
  let read : Request :=
    { query := Operation.readPrefix ++ (Identity.random 1).text, connection := .error .notCreated }
  [.act (.open (Identity.random 0) none { shutdownBlocks := true } []),
    .act (.open (Identity.random 1) none {} []), .act (.open (Identity.random 2) none {} []),
    .act (.open (Identity.random 3) none {} []),
    .act (.put (Identity.random 0).text 0), .act (.put (Identity.random 1).text 1),
    .act (.put (Identity.random 2).text 2),
    .act (.call "reading" (.request read)), .act (.call "closing" (.close 2)),
    .act (.advance 9), .act (.put (Identity.random 3).text 3)]

/-- The hub with these tunnels. -/
def agedUnevenly : Hub :=
  (({} : Hub).replay fourRegistered).2

/-- The sweep waits for the first tunnel, until its shutdown fails. -/
def reapingTwo : List Move :=
  [.act (.setManner 0 { shutdownError := some "broken" }), .go (.call 2)]

/-- The first and the third are closed at the end, the request is spared, and so is the tunnel that
has not been idle for so long. -/
theorem sweep_spares_request :
    ∃ first last, agedUnevenly.after? (.act (.call "reaping" (.sweep 5))) = some first ∧
      (first.replay reapingTwo).1.length = reapingTwo.length ∧
      (first.replay reapingTwo).2 = last ∧
      first.registry.entryOf? (Identity.random 0).text = none ∧
      first.registry.entryOf? (Identity.random 1).text = some ⟨(Identity.random 1).text, 1, 9⟩ ∧
      first.registry.entryOf? (Identity.random 3).text = some ⟨(Identity.random 3).text, 3, 9⟩ ∧
      last.IsThrough (.call 2) 2 ∧ last.isClosedAt 0 = true ∧ last.isClosedAt 2 = true ∧
      first.isOpenAt 1 = true := by
  have hmove : agedUnevenly.after? (.act (.call "reaping" (.sweep 5))) =
      some (agedUnevenly.apply (.call "reaping" (.sweep 5))).2 := rfl
  have hstarts : agedUnevenly.StartsSweep (.act (.call "reaping" (.sweep 5))) (.call 2) 5 :=
    .call 5 rfl rfl
  have hseated : agedUnevenly.IsSeated :=
    isSeated_of_reaches (run_replay {} fourRegistered).reaches
  obtain ⟨taken, hswept, hruns, hspared⟩ :=
    sweep_closes_what_it_took_out.1 _ _ _ _ 5 (by unfold Registry.Distinct; decide) hmove hstarts
  have hstays : StaysAt (.call 2)
      ((agedUnevenly.apply (.call "reaping" (.sweep 5))).2.replay reapingTwo).1 :=
    List.forall_mem_cons.mpr ⟨⟨⟨_, rfl⟩, fun hnone => absurd hnone (by decide)⟩,
      List.forall_mem_cons.mpr ⟨⟨⟨_, rfl⟩, fun _ => rfl⟩, List.forall_mem_nil _⟩⟩
  obtain ⟨hthrough, hclosed⟩ := (hruns _ _ (run_replay _ reapingTwo) hstays).2 (by decide)
  have hcount : taken.length = 2 := by
    have hsize : agedUnevenly.registry.size = 4 := by decide
    have hleft : (agedUnevenly.apply (.call "reaping" (.sweep 5))).2.registry.size = 2 := by decide
    have htotal := hswept.count
    omega
  have hfirst : (⟨(Identity.random 0).text, 0, 0⟩ : Registry.Entry).IsDue agedUnevenly.tunnels
      agedUnevenly.now 5 := ⟨_, rfl, Or.inr ⟨rfl, fun role => by cases role <;> rfl, by decide⟩⟩
  have hthird : (⟨(Identity.random 2).text, 2, 0⟩ : Registry.Entry).IsDue agedUnevenly.tunnels
      agedUnevenly.now 5 := ⟨_, rfl, Or.inl rfl⟩
  have hrequest : agedUnevenly.hasRequestOn 1 := Or.inl ⟨_, List.mem_cons_self, _, _, rfl⟩
  have hone := hclosed 0 ((hswept.mem_taken 0).mpr ⟨_, by decide, hfirst, rfl⟩)
  have htwo := hclosed 2 ((hswept.mem_taken 2).mpr ⟨_, by decide, hthird, rfl⟩)
  have hgone := hswept.due _ (by decide) hfirst
  have hmarked := hswept.used ⟨(Identity.random 1).text, 1, 0⟩ (by decide)
    ⟨_, .reader, rfl, rfl, rfl⟩
  have hjudged : Registry.judge agedUnevenly.tunnels agedUnevenly.now 5
      ⟨(Identity.random 3).text, 3, 9⟩ = .keep := by decide
  have hkept := hswept.rest ⟨(Identity.random 3).text, 3, 9⟩ (by decide)
    (fun hdue => nomatch hjudged.symm.trans (Registry.judge_eq_expire_iff.mpr hdue))
    (fun hused => nomatch hjudged.symm.trans (Registry.judge_eq_refresh_iff.mpr hused))
  have hopen := (hspared 1 hseated hrequest (by decide)).1
  rw [hcount] at hthrough
  exact ⟨_, _, hmove, by decide, rfl, hgone, hmarked, hkept, hthrough, hone, htwo, hopen⟩

end Hub

end LongPollTunnel

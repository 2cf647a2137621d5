import LongPollTunnel.Proofs.Passing

/-! # Who waits for a seat

A call waits for a seat from when it has drawn its ticket until it goes on or its user drops it.
Between these the ticket may be served already, with the call about to go on; once nobody can go on
no call that waits is served. Main statements: then, and while somebody acts as holder, the queue
of a seat is those who wait for it; and along every run a counter that is raised when somebody comes
to a seat and lowered when somebody goes tells how many wait for it, and so does the count of queued
readers that the tunnel keeps itself.
-/

namespace LongPollTunnel

theorem Handling.isSome_step_await (role : Role) (ticket : Nat) (around : Surroundings) :
    ((Handling.await role ticket).step around).isSome =
      (around.tunnel.seat role).isServing ticket := by
  cases role <;> (simp only [await, step, Tunnel.seat]; split <;> simp_all)

/-- A request that goes on does so as the holder of its seat. -/
theorem Handling.Step.isHolding {r : Registry} {t : Tunnel} {u : Upload}
    {handling next : Handling} {after : Surroundings}
    (hstep : handling.Step r t u (.goOn next) after) : next.isHolding = true := by
  generalize hprogress : Progress.goOn next = progress at hstep
  cases hstep with
  | writes _ | takes _ _ | blocks _ _ =>
      cases hprogress
      rfl
  | fails _ =>
      rw [failRelay_eq] at hprogress
      cases hclosing : (Tunnel.close _).1 with
      | done result =>
          rw [hclosing] at hprogress
          cases hprogress
      | waiting ticket =>
          rw [hclosing] at hprogress
          cases hprogress
          rfl
  | reads _ | finishes _ _ _ | closes _ => cases hprogress

namespace Call

/-- The call waits for a seat of the tunnel with this number. -/
def awaits (c : Call) (role : Role) (number : Nat) : Bool :=
  c.awaitedSeat? = some (role, number)

variable {c after : Call} {x : Claim}

theorem awaited?_of_idle (hidle : c.task = none) : c.awaited? = none := by
  simp [awaited?, hidle]

/-- A call waits for a seat for its user or for a request. -/
theorem task_of_awaited? (hx : c.awaited? = some x) :
    c.task = some (.acquire x.role ⟨x.tunnel, x.ticket⟩) ∨
      ∃ hold, c.task = some (.handle x.tunnel (.await x.role x.ticket) hold) := by
  obtain ⟨task, htask, hawaited⟩ := Option.bind_eq_some_iff.mp hx
  rw [htask]
  cases task with
  | acquire role hold =>
      cases hawaited
      exact Or.inl rfl
  | handle number handling hold =>
      cases handling with
      | awaitReader ticket | awaitWriter ticket =>
          cases hawaited
          exact Or.inr ⟨hold, rfl⟩
      | relaying ticket rest | closing failure ticket => cases hawaited
  | _ => cases hawaited

/-- A call acts under all of its tickets but the one that it waits with. -/
theorem claims_eq_append (c : Call) : c.claims = c.awaited?.toList ++ c.held := by
  cases htask : c.task with
  | none => simp [claims, held, awaited?, taskClaim?, htask]
  | some task =>
      cases hholding : task.isHolding <;>
        simp [claims, held, awaited?, Task.awaited?, taskClaim?, htask, hholding]

theorem mem_claims_iff : x ∈ c.claims ↔ c.awaited? = some x ∨ x ∈ c.held := by
  rw [c.claims_eq_append, List.mem_append, Option.mem_toList]

theorem Quiet.awaited?_eq (hquiet : c.Quiet after) : after.awaited? = c.awaited? := by
  rcases hquiet.task with hsame | ⟨hclaim, hclaim'⟩
  · simp [awaited?, hsame]
  · rw [awaited?_of_claim?_none hclaim, awaited?_of_claim?_none hclaim']

theorem awaited?_takeClosing (c : Call) (number : Nat) (closing : Tunnel.Closing) :
    (c.takeClosing number closing).awaited? = none := by
  cases closing <;> rfl

theorem awaited?_takeSweep (c : Call) (progress : Sweep.Progress) :
    (c.takeSweep progress).awaited? = none := by
  cases progress <;> rfl

theorem awaited?_answered (c : Call) (head : Head) (body : Body) (hold : Bool) :
    (c.answered head body hold).awaited? = none := by
  cases hold <;> rfl

end Call

theorem mem_ticketsFor {claims : List Claim} {role : Role} {number ticket : Nat} :
    ticket ∈ ticketsFor claims role number ↔ ⟨role, number, ticket⟩ ∈ claims := by
  simp only [ticketsFor, List.mem_map, List.mem_filter, decide_eq_true_eq]
  constructor
  · rintro ⟨x, ⟨hx, rfl, rfl⟩, rfl⟩
    exact hx
  · exact fun hx => ⟨_, ⟨hx, rfl, rfl⟩, rfl⟩

namespace Hub

variable {h next : Hub} {i number : Nat} {c after : Call} {x : Claim} {t : Tunnel} {role : Role}
  {move : Move} {log : List Record}

/-- How many calls wait for a seat of the tunnel with this number. -/
def awaiting (h : Hub) (role : Role) (number : Nat) : Nat :=
  h.calls.countP (·.awaits role number)

theorem mem_claims_iff :
    x ∈ h.claims ↔ (∃ c ∈ h.calls, c.awaited? = some x) ∨ x ∈ h.held := by
  simp only [claims, held, List.mem_append, List.mem_flatMap, Call.mem_claims_iff, and_or_left,
    exists_or, or_assoc]

theorem isSome_resumeHandling {handling : Handling} {hold : Bool}
    (ht : h.tunnels[number]? = some t) :
    (h.resumeHandling i c number handling hold).isSome =
      (handling.step ⟨h.registry, t, c.upload⟩).isSome := by
  cases hstep : handling.step ⟨h.registry, t, c.upload⟩ with
  | none => simp [resumeHandling, ht, hstep]
  | some result => rw [resumeHandling_eq ht hstep, Option.isSome_some, Option.isSome_some]

/-- Whoever waits can go on exactly if its ticket is served. -/
theorem canGoOn_of_awaited? (hc : h.calls[i]? = some c) (hx : c.awaited? = some x)
    (ht : h.tunnels[x.tunnel]? = some t) :
    h.canGoOn (.call i) = (t.seat x.role).isServing x.ticket := by
  rcases Call.task_of_awaited? hx with htask | ⟨hold, htask⟩
  · simp only [canGoOn, resume, resumeCall, resumeAcquire, hc, htask, ht, Option.bind_eq_bind,
      Option.bind_some]
    split
    next hserving => exact hserving.symm
    next hwaiting => exact (Bool.eq_false_iff.mpr hwaiting).symm
  · simp only [canGoOn, resume, resumeCall, hc, htask, Option.bind_eq_bind, Option.bind_some]
    rw [isSome_resumeHandling ht, Handling.isSome_step_await]

/-! ## When nobody can go on -/

/-- Nobody can go on if none of the agents that there are can. -/
theorem isSettled_iff : h.IsSettled ↔
    (∀ i < h.calls.length, h.canGoOn (.call i) = false) ∧
      (∀ j < h.streams.length, h.canGoOn (.stream j) = false) ∧
        ∀ k < h.sweepers.length, h.canGoOn (.sweeper k) = false := by
  constructor
  · intro hsettled
    have hnone (agent : Agent) : h.canGoOn agent = false := by simp [canGoOn, hsettled agent]
    exact ⟨fun i _ => hnone _, fun j _ => hnone _, fun k _ => hnone _⟩
  · rintro ⟨hcalls, hstreams, hsweepers⟩ agent
    rw [← Option.isNone_iff_eq_none, ← Option.isSome_eq_false_iff]
    change h.canGoOn agent = false
    cases agent with
    | call i =>
        by_cases hlt : i < h.calls.length
        · exact hcalls i hlt
        · simp [canGoOn, resume, resumeCall, hlt]
    | stream j =>
        by_cases hlt : j < h.streams.length
        · exact hstreams j hlt
        · simp [canGoOn, resume, resumeStream, hlt]
    | sweeper k =>
        by_cases hlt : k < h.sweepers.length
        · exact hsweepers k hlt
        · simp [canGoOn, resume, resumeSweeper, hlt]

instance (h : Hub) : Decidable h.IsSettled :=
  decidable_of_iff _ isSettled_iff.symm

/-- Whoever waits for this seat of the tunnel is behind the one that is served. -/
def AllBehind (h : Hub) (role : Role) (number : Nat) (t : Tunnel) : Prop :=
  ∀ c ∈ h.calls, ∀ ticket, c.awaited? = some ⟨role, number, ticket⟩ →
    (t.seat role).isServing ticket = false

theorem IsSettled.allBehind (hsettled : h.IsSettled) (ht : h.tunnels[number]? = some t)
    (role : Role) : h.AllBehind role number t := by
  intro c hc ticket hx
  obtain ⟨i, hi⟩ := List.mem_iff_getElem?.mp hc
  rw [← canGoOn_of_awaited? hi hx ht]
  simp [canGoOn, hsettled (.call i)]

/-- The tickets of a hub are those that calls wait with and those that somebody acts under. -/
theorem claims_perm (h : Hub) :
    h.claims.Perm (h.calls.flatMap (·.awaited?.toList) ++ h.held) := by
  have hcalls : (h.calls.flatMap (·.awaited?.toList) ++ h.calls.flatMap Call.held).Perm
      (h.calls.flatMap Call.claims) := by
    refine (List.flatMap_append_perm _ _ _).trans (List.Perm.flatMap_left _ fun c _ => ?_)
    rw [c.claims_eq_append]
  have hall := hcalls.symm.append_right
    (h.streams.flatMap Stream.claims ++ h.sweepers.flatMap Sweeper.claims)
  simpa only [claims, held, List.append_assoc] using hall

section

variable (hseated : h.IsSeated) (ht : h.tunnels[number]? = some t)
include hseated ht

theorem mem_claims_iff_tickets {ticket : Nat} :
    ⟨role, number, ticket⟩ ∈ h.claims ↔ ticket ∈ (t.seat role).tickets := by
  rw [← List.count_pos_iff, hseated.balanced, ticketsAt_eq ht, List.count_pos_iff]

/-- While somebody has a seat, nobody else is served. -/
theorem allBehind_of_mem_held {y : Claim} (hy : y ∈ h.held) (hrole : y.role = role)
    (htunnel : y.tunnel = number) : h.AllBehind role number t := by
  subst hrole htunnel
  intro c hc ticket hx
  obtain ⟨t', ht', hserving⟩ := hseated.served y hy
  cases ht.symm.trans ht'
  refine Bool.eq_false_iff.mpr fun hserved => ?_
  have hticket : ticket = y.ticket :=
    Option.some.inj ((Seat.isServing_iff.mp hserved).symm.trans (Seat.isServing_iff.mp hserving))
  -- no ticket is there twice, as that of a holder and of one who waits
  have hnodup := (List.Perm.nodup_iff h.claims_perm).mp hseated.nodup
  refine List.disjoint_of_nodup_append hnodup (List.mem_flatMap.mpr ⟨c, hc, ?_⟩) hy
  rw [hx, hticket]
  exact List.mem_singleton_self _

variable (hbehind : h.AllBehind role number t)
include hbehind

/-- The holder of a seat is somebody who acts under the ticket. -/
theorem isServing_iff_mem_held {ticket : Nat} :
    (t.seat role).isServing ticket = true ↔ ⟨role, number, ticket⟩ ∈ h.held := by
  constructor
  · intro hserving
    have hticket : ticket ∈ (t.seat role).tickets :=
      List.mem_append_left _ (by simp [Seat.isServing_iff.mp hserving])
    rcases mem_claims_iff.mp ((mem_claims_iff_tickets hseated ht).mpr hticket) with
      ⟨c, hc, hx⟩ | hheld
    · rw [hbehind c hc ticket hx] at hserving
      cases hserving
    · exact hheld
  · intro hheld
    obtain ⟨t', ht', hserving⟩ := hseated.served _ hheld
    cases ht.symm.trans ht'
    exact hserving

/-- The queue of a seat is those who wait for it. -/
theorem mem_waiting_iff {ticket : Nat} :
    ticket ∈ (t.seat role).waiting ↔ ∃ c ∈ h.calls, c.awaited? = some ⟨role, number, ticket⟩ := by
  have hnodup := Seat.nodup_tickets (hseated.ordered number t ht role)
  have hclaims : ⟨role, number, ticket⟩ ∈ h.claims ↔ ticket ∈ (t.seat role).tickets :=
    mem_claims_iff_tickets hseated ht
  constructor
  · intro hwaiting
    rcases mem_claims_iff.mp (hclaims.mpr (List.mem_append_right _ hwaiting)) with hc | hheld
    · exact hc
    · -- the holder's ticket is not in the queue
      have hserving := (isServing_iff_mem_held hseated ht hbehind).mpr hheld
      rw [Seat.tickets, Seat.isServing_iff.mp hserving] at hnodup
      exact absurd hwaiting (List.nodup_cons.mp hnodup).1
  · rintro ⟨c, hc, hx⟩
    have hticket := hclaims.mp (mem_claims_iff.mpr (Or.inl ⟨c, hc, hx⟩))
    have hnot := hbehind c hc ticket hx
    refine (List.mem_append.mp hticket).resolve_left fun hserved => ?_
    rw [Seat.isServing_iff.mpr (Option.mem_toList.mp hserved)] at hnot
    cases hnot

/-- As many callers are in the queue of a seat as wait for it. -/
theorem length_waiting : (t.seat role).waiting.length = h.awaiting role number := by
  have hwaiting : (t.seat role).waiting.Nodup :=
    (List.nodup_append.mp (Seat.nodup_tickets (hseated.ordered number t ht role))).2.1
  have hawaited : (h.calls.filterMap Call.awaited?).Nodup := by
    rw [List.filterMap_eq_flatMap_toList]
    exact (List.nodup_append.mp ((List.Perm.nodup_iff h.claims_perm).mp hseated.nodup)).1
  have hqueue : (ticketsFor (h.calls.filterMap Call.awaited?) role number).Nodup := by
    refine List.Nodup.map_on ?_ (hawaited.filter _)
    rintro ⟨role₁, tunnel₁, ticket⟩ hfirst ⟨role₂, tunnel₂, _⟩ hsecond rfl
    simp only [List.mem_filter, decide_eq_true_eq] at hfirst hsecond
    obtain ⟨-, rfl, rfl⟩ := hfirst
    obtain ⟨-, rfl, rfl⟩ := hsecond
    rfl
  -- both are without repetition, so it is enough that they have the same members
  have hperm : (t.seat role).waiting.Perm
      (ticketsFor (h.calls.filterMap Call.awaited?) role number) := by
    refine (List.perm_ext_iff_of_nodup hwaiting hqueue).mpr fun ticket => ?_
    rw [mem_waiting_iff hseated ht hbehind, mem_ticketsFor, List.mem_filterMap]
  rw [hperm.length_eq, ticketsFor, List.length_map, ← List.countP_eq_length_filter,
    List.countP_filterMap]
  refine List.countP_congr fun c _ => ?_
  cases hx : c.awaited? <;> simp [Call.awaits, Call.awaitedSeat?, hx]

end

/-! ## Coming and going -/

/-- The seat that a request is to be given. -/
def soughtBy? (h : Hub) (r : Request) : Option (Role × Nat) :=
  match Operation.ofQuery r.query with
  | .error _ => none
  | .ok operation =>
    operation.seeks?.bind fun (role, identity) =>
      (h.registry.get identity h.now).1.map fun number => (role, number)

/-- The seat that an action makes a call wait for. -/
def seatFor? (h : Hub) (action : CallAction) : Option (Role × Nat) :=
  (match action with
    | .acquire number role => some (role, number)
    | .request r => h.soughtBy? r
    | _ => none).filter fun seat => seat.2 < h.tunnels.length

/-- The seat that somebody comes to in a move. -/
def comesTo? (h : Hub) : Move → Option (Role × Nat)
  | .act (.call name action) =>
    (h.withCall name).2.calls[(h.withCall name).1]?.bind fun c =>
      if (c.objection? action).isNone then (h.withCall name).2.seatFor? action else none
  | .act _ | .go _ | .takeNews => none

theorem awaiting_of_set (hc : h.calls[i]? = some c) (hcalls : next.calls = h.calls.set i after)
    (role : Role) (number : Nat) :
    next.awaiting role number + (if c.awaitedSeat? = some (role, number) then 1 else 0) =
      h.awaiting role number + if after.awaitedSeat? = some (role, number) then 1 else 0 := by
  obtain ⟨hlt, rfl⟩ := List.getElem?_eq_some_iff.mp hc
  have hbefore := (List.getElem_cons_eraseIdx_perm hlt).countP_eq (·.awaits role number)
  have hafter := (List.set_perm_cons_eraseIdx hlt after).countP_eq (·.awaits role number)
  rw [List.countP_cons] at hbefore hafter
  simp only [Call.awaits, decide_eq_true_eq] at hbefore hafter
  simp only [awaiting, Call.awaits, hcalls, ← hbefore, hafter]
  omega

/-- What an action makes of a call that has no objection and seeks a seat. -/
inductive Seeks (h : Hub) (i : Nat) (action : CallAction) (next : Hub) : Prop where
  | waits {role : Role} {number : Nat} {t : Tunnel} {after : Call}
      (hseat : h.seatFor? action = some (role, number)) (ht : h.tunnels[number]? = some t)
      (htunnels : next.tunnels = h.tunnels.set number (t.draw role).2)
      (hcalls : next.calls = h.calls.set i after)
      (hawaited : after.awaitedSeat? = some (role, number))
  | answered {after : Call} (hseat : h.seatFor? action = none)
      (htunnels : next.tunnels = h.tunnels) (hcalls : next.calls = h.calls.set i after)
      (hawaited : after.awaitedSeat? = none)

theorem Starts.seeks {r : Request} (hstarts : h.Starts i c r next) :
    h.Seeks i (.request r) next := by
  have hanswered (head : Head) (body : Body) :
      ((c.asking r).answered head body r.hold).awaitedSeat? = none := by
    simp [Call.awaitedSeat?, Call.awaited?_answered]
  cases hstarts with
  | invalid hquery =>
      exact .answered (by simp [seatFor?, soughtBy?, hquery]) rfl rfl (hanswered _ _)
  | uncreated hquery _ | created hquery _ _ =>
      exact .answered (by simp [seatFor?, soughtBy?, hquery, Operation.seeks?]) rfl rfl
        (hanswered _ _)
  | absent hquery hseeks hnone =>
      refine .answered ?_ rfl rfl (hanswered _ _)
      simp only [seatFor?, soughtBy?, hquery, hseeks, Option.bind_some, Option.filter_eq_none_iff,
        Option.map_eq_some_iff, decide_eq_true_eq]
      rintro _ ⟨number, hfound, rfl⟩
      exact Nat.not_lt.mpr (List.getElem?_eq_none_iff.mp (hnone number hfound))
  | @waits operation role identity number t hquery hseeks hfound ht =>
      have hlt := (List.getElem?_eq_some_iff.mp ht).1
      refine .waits (by simp [seatFor?, soughtBy?, hquery, hseeks, hfound, hlt]) ht rfl rfl ?_
      cases role <;> rfl

/-- A call that seeks a seat waits, or is told at once that there is none. -/
theorem seeks_applyCall (hc : h.calls[i]? = some c) {action : CallAction}
    (hidle : c.task = none) (hseeks : action.seeksSeat = true) :
    h.Seeks i action (h.applyCall i c action).2 := by
  cases action with
  | acquire number role =>
      simp only [applyCall, startAcquire]
      split
      next hnone =>
        have hle := List.getElem?_eq_none_iff.mp hnone
        exact .answered (by simp [seatFor?, hle]) rfl (congrArg Hub.calls (setCall_self hc)).symm
          (by simp [Call.awaitedSeat?, Call.awaited?_of_idle hidle])
      next t ht =>
        have hlt := (List.getElem?_eq_some_iff.mp ht).1
        exact .waits (by simp [seatFor?, hlt]) ht rfl rfl rfl
  | request r => exact (h.starts_startRequest i c r).seeks
  | _ => cases hseeks

/-- What is asked of a call otherwise leaves its wait alone, unless it drops the wait. -/
theorem CallStep.awaited?_eq {action : CallAction} (hstep : CallStep h i c (some action) next)
    (hseeks : action.seeksSeat = false) (hkeeps : action.dropsTask = false) :
    ∃ after, next.calls = h.calls.set i after ∧ after.awaited? = c.awaited? := by
  cases hstep with
  | quiet hquiet | look _ _ hquiet | keepSweeping _ hquiet => exact ⟨_, rfl, hquiet.awaited?_eq⟩
  | close hidle _ =>
      refine ⟨_, rfl, ?_⟩
      rw [Call.awaited?_takeClosing, Call.awaited?_of_idle hidle]
  | sweep _ hidle =>
      simp only [startSweep, keepSweep_eq]
      refine ⟨_, rfl, ?_⟩
      rw [Call.awaited?_takeSweep, Call.awaited?_of_idle hidle]
  | stopSweeping | upload _ => exact ⟨_, rfl, rfl⟩
  | draw _ _ _ | request _ _ _ => cases hseeks
  | abort | release | drop => cases hkeeps

/-- A request that goes on waits for a seat no longer. -/
theorem awaited?_takeProgress {hold : Bool} {handling : Handling}
    {progress : Handling.Progress} {around : Handling.Surroundings}
    (hstep : handling.Step h.registry t c.upload progress around) :
    ∃ after, (h.takeProgress i c number hold progress around).calls = h.calls.set i after ∧
      after.awaited? = none := by
  cases progress with
  | answer head => exact ⟨_, rfl, Call.awaited?_answered _ _ _ _⟩
  | stream ticket => exact ⟨_, rfl, Call.awaited?_answered _ _ _ _⟩
  | goOn handling' =>
      refine ⟨_, rfl, ?_⟩
      simp [Call.awaited?, Task.awaited?, Task.isHolding, hstep.isHolding]

/-- A call that goes on waits for a seat no longer. -/
theorem exists_of_resumeCall (hnext : h.resumeCall i = some next) :
    ∃ c after, h.calls[i]? = some c ∧ next.calls = h.calls.set i after ∧
      after.awaited? = none := by
  obtain ⟨c, hc, hstep⟩ := callStep_resumeCall hnext
  suffices hafter : ∃ after, next.calls = h.calls.set i after ∧ after.awaited? = none by
    obtain ⟨after, hcalls, hfree⟩ := hafter
    exact ⟨c, after, hc, hcalls, hfree⟩
  -- the step alone does not tell that a wait is over, so those who wait are taken first
  cases hx : c.awaited? with
  | some x =>
      rcases Call.task_of_awaited? hx with htask | ⟨hold, htask⟩ <;>
        simp only [resumeCall, hc, htask, Option.bind_eq_bind, Option.bind_some] at hnext
      · obtain ⟨t, _, hrest⟩ := exists_of_bind_eq_some hnext
        split at hrest
        · cases hrest
          exact ⟨_, calls_acquired h i c _ _, rfl⟩
        · cases hrest
      · obtain ⟨t, progress, around, _, hhandling, rfl⟩ := exists_of_resumeHandling hnext
        exact awaited?_takeProgress hhandling
  | none =>
      cases hstep with
      | quiet hquiet | use _ _ hquiet | take _ _ hquiet =>
          exact ⟨_, rfl, hquiet.awaited?_eq.trans hx⟩
      | acquired _ _ _ => exact ⟨_, calls_acquired h i c _ _, rfl⟩
      | closeOn _ _ => exact ⟨_, rfl, Call.awaited?_takeClosing c _ _⟩
      | sweepOn _ _ =>
          rw [keepSweep_eq]
          exact ⟨_, rfl, Call.awaited?_takeSweep c _⟩
      | handle _ _ hhandling => exact awaited?_takeProgress hhandling

theorem awaiting_withCall (h : Hub) (name : String) (role : Role) (number : Nat) :
    (h.withCall name).2.awaiting role number = h.awaiting role number := by
  unfold awaiting
  rcases h.calls_withCall name with heq | ⟨_, heq⟩
  · rw [heq]
  · rw [heq, List.countP_append]
    rfl

theorem calls_of_dropsTask {action : CallAction} (hdrops : action.dropsTask = true) :
    ∃ after, (h.applyCall i c action).2.calls = h.calls.set i after ∧ after.task = none := by
  cases action with
  | abort => exact ⟨_, calls_abortTask h i c, rfl⟩
  | release => exact ⟨_, calls_releaseAll h i c, rfl⟩
  | drop => exact ⟨_, calls_dropClient h i c, rfl⟩
  | _ => cases hdrops

theorem dropsTask_of_objection {action : CallAction} {objection : Objection}
    (hobjection : c.objection? action = some objection) : action.dropsTask = false := by
  cases action with
  | abort | release | drop => cases hobjection
  | _ => rfl

theorem awaiting_applyCall (hc : h.calls[i]? = some c) {action : CallAction}
    (hobjection : c.objection? action = none) (role : Role) (number : Nat) :
    (h.applyCall i c action).2.awaiting role number +
        (if (if action.dropsTask then c.awaitedSeat? else none) = some (role, number)
          then 1 else 0) =
      h.awaiting role number + if h.seatFor? action = some (role, number) then 1 else 0 := by
  cases hseeks : action.seeksSeat with
  | true =>
      have hidle : c.task = none :=
        task_of_objection? hobjection (by cases action <;> first | rfl | cases hseeks)
      have hfree : c.awaitedSeat? = none := by
        simp [Call.awaitedSeat?, Call.awaited?_of_idle hidle]
      cases seeks_applyCall hc hidle hseeks with
      | waits hseat _ _ hcalls hawaited | answered hseat _ hcalls hawaited =>
          have hlaw := awaiting_of_set hc hcalls role number
          simpa [hseat, hfree, hawaited] using hlaw
  | false =>
      have hseat : h.seatFor? action = none := by
        cases action <;> first | rfl | cases hseeks
      cases hdrops : action.dropsTask with
      | true =>
          obtain ⟨after, hcalls, hidle⟩ := calls_of_dropsTask (h := h) (i := i) (c := c) hdrops
          have hlaw := awaiting_of_set hc hcalls role number
          simpa [hseat, Call.awaitedSeat?, Call.awaited?_of_idle hidle] using hlaw
      | false =>
          obtain ⟨after, hcalls, hsame⟩ :=
            (callStep_applyCall hc hobjection).awaited?_eq hseeks hdrops
          have hlaw := awaiting_of_set hc hcalls role number
          rw [Call.awaitedSeat?, Call.awaitedSeat?, hsame] at hlaw
          simpa [hseat] using hlaw

/-- In one move those who wait become as many more as come and as many less as go. -/
theorem awaiting_after? (hmove : h.after? move = some next) (role : Role) (number : Nat) :
    next.awaiting role number + (if h.goesFrom? move = some (role, number) then 1 else 0) =
      h.awaiting role number + if h.comesTo? move = some (role, number) then 1 else 0 := by
  cases move with
  | takeNews =>
      cases hmove
      simp only [awaiting, withoutNews, List.countP_map]
      rfl
  | go agent =>
      cases agent with
      | call i =>
          obtain ⟨c, after, hc, hcalls, hfree⟩ := exists_of_resumeCall hmove
          have hlaw := awaiting_of_set hc hcalls role number
          simpa [goesFrom?, comesTo?, seatOf?, hc, Call.awaitedSeat?, hfree] using hlaw
      | stream j =>
          obtain ⟨_, _, _, _, _, _, _, rfl⟩ := streamStep_resumeStream hmove
          rfl
      | sweeper k =>
          unfold awaiting
          rw [calls_resumeSweeper hmove]
          rfl
  | act action =>
      cases hmove
      cases action with
      | call name action =>
          rw [← awaiting_withCall h name]
          simp only [goesFrom?, comesTo?, seatOf?, apply]
          split
          next hnone => simp [hnone]
          next c hc =>
            -- who is objected to neither comes nor goes
            split
            next objection hobjection =>
              simp [hc, hobjection, dropsTask_of_objection hobjection]
            next hobjection =>
              simpa [hc, hobjection] using awaiting_applyCall hc hobjection role number
      | _ =>
          unfold awaiting
          rw [calls_apply h (by simp)]
          rfl

/-! ## The count that a tunnel keeps -/

/-- Whoever seeks a seat draws a ticket for the seat that it comes to, if it comes to one. -/
theorem tunnels_of_seeks (h : Hub) (name : String) {action : CallAction}
    (hseeks : action.seeksSeat = true) :
    (h.comesTo? (.act (.call name action)) = none ∧
      (h.apply (.call name action)).2.tunnels = h.tunnels) ∨
      ∃ role number t, h.comesTo? (.act (.call name action)) = some (role, number) ∧
        h.tunnels[number]? = some t ∧
        (h.apply (.call name action)).2.tunnels = h.tunnels.set number (t.draw role).2 := by
  rw [← tunnels_withCall h name]
  simp only [comesTo?, apply]
  split
  next hnone => exact Or.inl ⟨by simp [hnone], rfl⟩
  next c hc =>
    split
    next objection hobjection => exact Or.inl ⟨by simp [hc, hobjection], rfl⟩
    next hobjection =>
      have hidle : c.task = none :=
        task_of_objection? hobjection (by cases action <;> first | rfl | cases hseeks)
      cases seeks_applyCall hc hidle hseeks with
      | answered hseat htunnels _ _ =>
          exact Or.inl ⟨by simp [hc, hseat], htunnels⟩
      | waits hseat ht htunnels _ _ =>
          exact Or.inr ⟨_, _, _, by simp [hc, hobjection, hseat], ht, htunnels⟩

theorem comesTo?_of_not_seeks (hseeks : ¬ move.seeksSeat = true) : h.comesTo? move = none := by
  match move with
  | .go _ | .takeNews => rfl
  | .act (.open _ _ _ _) | .act (.feed _ _) | .act (.setManner _ _) | .act (.describe _ _)
  | .act (.put _ _) | .act (.get _) | .act (.remove _) | .act (.advance _) => rfl
  | .act (.call name action) =>
      have hseat (h : Hub) : h.seatFor? action = none := by
        cases action with
        | acquire number role | request r => exact absurd rfl hseeks
        | _ => rfl
      simp [comesTo?, hseat]

theorem goesFrom?_of_seeks (hseeks : move.seeksSeat = true) : h.goesFrom? move = none := by
  match move with
  | .go _ | .takeNews => cases hseeks
  | .act (.open _ _ _ _) | .act (.feed _ _) | .act (.setManner _ _) | .act (.describe _ _)
  | .act (.put _ _) | .act (.get _) | .act (.remove _) | .act (.advance _) => rfl
  | .act (.call name action) =>
      cases action with
      | acquire number role | request r => rfl
      | _ => cases hseeks

theorem tunnels_of_dropsTask {action : CallAction} (hdrops : action.dropsTask = true) :
    ∃ given, (h.applyCall i c action).2.tunnels = (h.giveBack given c.awaited?).tunnels := by
  have haborted : (h.abortTask i c).tunnels =
      (h.giveBack c.taskClaim?.toList c.awaited?).tunnels := by
    rw [abortTask_eq]
    rfl
  cases action with
  | abort => exact ⟨_, haborted⟩
  | release =>
      refine ⟨c.claims, ?_⟩
      simp only [applyCall, releaseAll_eq]
      rfl
  | drop =>
      refine ⟨c.taskClaim?.toList, ?_⟩
      simp only [applyCall, dropClient]
      split
      next body _ => cases body <;> exact haborted
      · exact haborted
  | _ => cases hdrops

/-- Whoever goes on from its wait is taken out of the count, and may give up another seat. -/
theorem tunnels_of_awaited (hc : h.calls[i]? = some c) (hx : c.awaited? = some x)
    (hnext : h.resumeCall i = some next) :
    ∃ given, next.tunnels = (h.giveBack given (some x)).tunnels := by
  rcases Call.task_of_awaited? hx with htask | ⟨hold, htask⟩ <;>
    simp only [resumeCall, hc, htask, Option.bind_eq_bind, Option.bind_some] at hnext
  · obtain ⟨t, -, hrest⟩ := exists_of_bind_eq_some hnext
    split at hrest
    · cases hrest
      rw [unqueue_leave?_eq_giveBack]
      exact ⟨_, rfl⟩
    · cases hrest
  · obtain ⟨t, progress, around, ht, hhandling, rfl⟩ := exists_of_resumeHandling hnext
    have htunnels : (h.takeProgress i c x.tunnel hold progress around).tunnels =
        h.tunnels.set x.tunnel around.tunnel := by cases progress <;> rfl
    refine ⟨[], ?_⟩
    rw [htunnels]
    change _ = h.tunnels.modify x.tunnel (·.unqueue x.role)
    rw [modify_eq_set_of_getElem? _ ht]
    cases hrole : x.role with
    | reader =>
        rw [hrole] at hhandling
        cases hhandling with
        | reads _ => rfl
    | writer =>
        rw [hrole] at hhandling
        cases hhandling with
        | writes _ => rfl

/-- Whoever goes from a queue, by having the seat or by giving up, is no longer awaited there and
may give back seats besides. -/
theorem tunnels_of_goes {seat : Role × Nat} (hmove : h.after? move = some next)
    (hgoes : h.goesFrom? move = some seat) :
    ∃ (before : Hub) (c : Call) (given : List Claim), before.tunnels = h.tunnels ∧
      c.awaitedSeat? = some seat ∧
      next.tunnels = (before.giveBack given c.awaited?).tunnels := by
  cases move with
  | takeNews => cases hgoes
  | go agent =>
      cases agent with
      | stream _ | sweeper _ => cases hgoes
      | call i =>
          obtain ⟨c, hc, hseat⟩ := Option.bind_eq_some_iff.mp hgoes
          obtain ⟨x, hx, -⟩ := Option.map_eq_some_iff.mp hseat
          obtain ⟨given, htunnels⟩ := tunnels_of_awaited hc hx hmove
          exact ⟨h, c, given, rfl, hseat, by rw [htunnels, hx]⟩
  | act action =>
      cases action with
      | call name action =>
          cases hmove
          simp only [goesFrom?] at hgoes
          split at hgoes
          next hdrops =>
            obtain ⟨c, hc, hseat⟩ := Option.bind_eq_some_iff.mp hgoes
            have hobjection : c.objection? action = none := by
              cases action with
              | abort | release | drop =>
                  simp [Call.objection?, CallAction.isRequest, CallAction.startsTask]
              | _ => cases hdrops
            obtain ⟨given, htunnels⟩ :=
              tunnels_of_dropsTask (h := (h.withCall name).2) (c := c) hdrops
            refine ⟨(h.withCall name).2, c, given, h.tunnels_withCall name, hseat, ?_⟩
            simp only [apply, hc, hobjection]
            exact htunnels
          · cases hgoes
      | _ => cases hgoes

/-- Whoever goes from a queue is taken out of the count, whether it has the seat now or has given
up. -/
theorem queuedReaders_of_goes {seat : Role × Nat} {t' : Tunnel} (hmove : h.after? move = some next)
    (hgoes : h.goesFrom? move = some seat) (ht : h.tunnels[number]? = some t)
    (ht' : next.tunnels[number]? = some t') :
    t'.queuedReaders = t.queuedReaders - if seat = (.reader, number) then 1 else 0 := by
  obtain ⟨before, c, given, hbefore, hseat, htunnels⟩ := tunnels_of_goes hmove hgoes
  rw [← hbefore] at ht
  obtain ⟨after, hafter, -, hqueued, -⟩ := exists_giveBack ht given c.awaited?
  rw [htunnels, hafter] at ht'
  cases ht'
  rw [Call.awaitedSeat?] at hseat
  rw [hqueued, hseat]
  simp only [Option.some.injEq]

/-- Whoever seeks a seat is counted at the tunnel whose reader's seat it comes to. -/
theorem queuedReaders_of_seeks {t' : Tunnel} {name : String} {action : CallAction}
    (hseeks : action.seeksSeat = true) (ht : h.tunnels[number]? = some t)
    (ht' : (h.apply (.call name action)).2.tunnels[number]? = some t') :
    t'.queuedReaders = t.queuedReaders +
      if h.comesTo? (.act (.call name action)) = some (.reader, number) then 1 else 0 := by
  rcases tunnels_of_seeks h name hseeks with
    ⟨hcomes, htunnels⟩ | ⟨role, number', drawn, hcomes, hdrawn, htunnels⟩
  · rw [htunnels, ht] at ht'
    cases ht'
    simp [hcomes]
  · rw [htunnels] at ht'
    by_cases hnumber : number' = number
    · subst hnumber
      rw [getElem?_set_of_getElem? hdrawn] at ht'
      cases ht.symm.trans hdrawn
      cases ht'
      cases role <;> simp [hcomes, Role.queuedReaders]
    · rw [List.getElem?_set_ne hnumber, ht] at ht'
      cases ht'
      simp [hcomes, hnumber]

/-- In one move the count of queued readers goes up by who comes to read and down by who goes. -/
theorem queuedReaders_after? {t' : Tunnel} (hmove : h.after? move = some next)
    (ht : h.tunnels[number]? = some t) (ht' : next.tunnels[number]? = some t') :
    t'.queuedReaders =
      t.queuedReaders + (if h.comesTo? move = some (.reader, number) then 1 else 0) -
        if h.goesFrom? move = some (.reader, number) then 1 else 0 := by
  by_cases hseeks : move.seeksSeat = true
  · rw [goesFrom?_of_seeks hseeks]
    match move with
    | .go _ | .takeNews => cases hseeks
    | .act (.open _ _ _ _) | .act (.feed _ _) | .act (.setManner _ _) | .act (.describe _ _)
    | .act (.put _ _) | .act (.get _) | .act (.remove _) | .act (.advance _) => cases hseeks
    | .act (.call name action) =>
        cases hmove
        exact queuedReaders_of_seeks hseeks ht ht'
  · rw [comesTo?_of_not_seeks hseeks]
    cases hgoes : h.goesFrom? move with
    | some seat =>
        rw [queuedReaders_of_goes hmove hgoes ht ht']
        simp
    | none =>
        obtain ⟨found, hfound, hbecomes⟩ := becomes_after? hmove ht
        cases ht'.symm.trans hfound
        rw [hbecomes.queuedReaders_eq hseeks (by simp [rights, hgoes])]
        simp

/-- Each tunnel counts as queued readers those who wait for its reader's seat. -/
def CountsQueued (h : Hub) : Prop :=
  ∀ (number : Nat) (t : Tunnel), h.tunnels[number]? = some t →
    t.queuedReaders = h.awaiting .reader number

theorem CountsQueued.after? (hcounts : h.CountsQueued) (hseated : next.IsSeated)
    (hmove : h.after? move = some next) : next.CountsQueued := by
  intro number t' ht'
  cases ht : h.tunnels[number]? with
  | some t =>
      have hlaw := awaiting_after? hmove .reader number
      rw [queuedReaders_after? hmove ht ht', hcounts number t ht]
      omega
  | none =>
      obtain ⟨_, _, _, _, -, -, rfl⟩ := opened_after? hmove ht ht'
      -- nobody has a ticket of a tunnel that was opened in this very move
      refine (List.countP_eq_zero.mpr fun c hc hawaits => ?_).symm
      obtain ⟨x, hx, hseat⟩ := Option.map_eq_some_iff.mp (of_decide_eq_true hawaits)
      obtain ⟨hrole, rfl⟩ := Prod.mk.inj hseat
      obtain ⟨t, ht, hticket⟩ :=
        hseated.exists_tunnel (mem_claims_iff.mpr (Or.inl ⟨c, hc, hx⟩))
      cases ht'.symm.trans ht
      rw [hrole] at hticket
      cases hticket

theorem countsQueued_of_run (hrun : Run {} log h) : h.CountsQueued := by
  induction hrun with
  | nil =>
      intro number t ht
      cases ht
  | snoc hbefore hmove ih =>
      exact ih.after? (isSeated_of_reaches (hbefore.snoc hmove).reaches) hmove

/-- Somebody comes to a seat. -/
def Record.comes (r : Record) (role : Role) (number : Nat) : Bool :=
  r.before.comesTo? r.move = some (role, number)

/-- Somebody goes from the queue of a seat. -/
def Record.goes (r : Record) (role : Role) (number : Nat) : Bool :=
  r.before.goesFrom? r.move = some (role, number)

/-- A counter that is raised when somebody comes to a seat and lowered when somebody goes from its
queue, as it stands after these moves. -/
def counter (log : List Record) (role : Role) (number : Nat) : Int :=
  log.foldl (fun count r => count + (if r.comes role number then 1 else 0) -
    if r.goes role number then 1 else 0) 0

theorem counter_snoc (log : List Record) (r : Record) (role : Role) (number : Nat) :
    counter (log ++ [r]) role number =
      counter log role number + (if r.comes role number then 1 else 0) -
        if r.goes role number then 1 else 0 := by
  rw [counter, List.foldl_append]
  rfl

/-- Along every run the counter of a seat tells how many wait for it. So it is never below zero, and
no wait that was given up leaves it raised. -/
theorem counter_of_run (hrun : Run {} log h) (role : Role) (number : Nat) :
    counter log role number = h.awaiting role number := by
  induction hrun with
  | nil => rfl
  | snoc _ hmove ih =>
      have hlaw := awaiting_after? hmove role number
      rw [counter_snoc, ih]
      simp only [Record.comes, Record.goes, decide_eq_true_eq]
      split_ifs at hlaw ⊢ <;> omega

end Hub

end LongPollTunnel

import LongPollTunnel.Proofs.Histories
import LongPollTunnel.Proofs.Independence
import LongPollTunnel.Proofs.Relaying

/-! # Tunnels that do not get in each other's way

Steps about different tunnels can be taken in either order, since each is a step of its own part
and leaves all others alone. Main statement: the steps about different tunnels commute, and what
the clients of a tunnel are told does not depend on how its steps come between those of others.
-/

namespace LongPollTunnel

namespace Hub

variable {own : String → Option Nat} {number other : Nat} {h next : Hub} {move : Move}

/-! ## Steps after those about other tunnels -/

theorem IsStepFor.congr (hfor : h.IsStepFor own number move)
    (hclient : ∀ action : CallAction, action.IsFor number h.tunnels →
      action.IsFor number next.tunnels)
    (hcall : ∀ i : Nat, (∃ c : Call, h.calls[i]? = some c ∧ own c.name = some number) →
      ∃ c : Call, next.calls[i]? = some c ∧ own c.name = some number)
    (hstream : ∀ j : Nat, (∃ s : Stream, h.streams[j]? = some s ∧ s.tunnel = number) →
      ∃ s : Stream, next.streams[j]? = some s ∧ s.tunnel = number) :
    next.IsStepFor own number move := by
  cases hfor with
  | client hown haction => exact .client hown (hclient _ haction)
  | @call i c hc hown =>
      obtain ⟨c', hc', hown'⟩ := hcall i ⟨c, hc, hown⟩
      exact .call hc' hown'
  | @stream j s hs htunnel =>
      obtain ⟨s', hs', htunnel'⟩ := hstream j ⟨s, hs, htunnel⟩
      exact .stream hs' htunnel'
  | feed arrivals => exact .feed arrivals
  | setManner manner => exact .setManner manner

/-- What is a step about a tunnel after a step about another one was so before. -/
theorem ChangesAt.isStepFor_iff (hchanges : h.ChangesAt own number next) (hne : other ≠ number)
    (move : Move) : next.IsStepFor own other move ↔ h.IsStepFor own other move := by
  have hclient (action : CallAction) :
      action.IsFor other next.tunnels ↔ action.IsFor other h.tunnels :=
    action.isFor_congr hchanges.tunnels.identities
  have hcall := exists_getElem?_iff_of_prefix Call.name
    (fun name => decide (own name = some other)) hchanges.calls.numbering
    (hchanges.calls.others (some other) (by simpa using hne))
  have hstream := exists_getElem?_iff_of_prefix Stream.tunnel (fun n => decide (n = other))
    hchanges.streams.numbering (hchanges.streams.others other hne)
  simp only [decide_eq_true_eq] at hcall hstream
  constructor
  · intro hfor
    exact hfor.congr (fun action => (hclient action).mp) (fun i => (hcall i).mp)
      fun j => (hstream j).mp
  · intro hfor
    exact hfor.congr (fun action => (hclient action).mpr) (fun i => (hcall i).mpr)
      fun j => (hstream j).mpr

/-- The numbers of calls and streams in a part are the same after a step about another tunnel. -/
theorem ChangesAt.moveIn_eq (hchanges : h.ChangesAt own number next)
    (hfor : h.IsStepFor own other move) : next.moveIn own other move = h.moveIn own other move := by
  cases hfor with
  | client hown haction => rfl
  | @call i c hc hown =>
      have hplace : next.callPlace own other i = h.callPlace own other i :=
        placeOf_eq_of_prefix Call.name (fun name => decide (own name = some other))
          hchanges.calls.numbering (List.getElem?_eq_some_iff.mp hc).1.le
      simp only [moveIn, hplace]
  | @stream j s hs htunnel =>
      have hplace := hchanges.streams.placeOn_eq (List.getElem?_eq_some_iff.mp hs).1.le other
      simp only [moveIn, hplace]
  | feed arrivals => rfl
  | setManner manner => rfl

/-- A step about a tunnel makes of its part what it makes of it after a step about another. -/
theorem IsParted.part_after?_of_changesAt (hparted : h.IsParted own)
    (hchanges : h.ChangesAt own number next) (hne : other ≠ number)
    (hfor : h.IsStepFor own other move) :
    (next.after? move).map (part own other) = (h.after? move).map (part own other) := by
  have hparted' := hparted.of_changesAt hchanges
  have hfor' := (hchanges.isStepFor_iff hne move).mpr hfor
  calc
    (next.after? move).map (part own other) =
        (next.part own other).after? (next.moveIn own other move) := hparted'.part_after? hfor'
    _ = (h.part own other).after? (h.moveIn own other move) := by
      rw [hchanges.part_eq hparted hne, hchanges.moveIn_eq hfor]
    _ = (h.after? move).map (part own other) := (hparted.part_after? hfor).symm

/-! ## Steps that commute -/

/-- The hubs are the same but for the order in which they have the calls, the streams and the
entries of different tunnels. -/
structure SameParts (own : String → Option Nat) (h h' : Hub) : Prop where
  tunnels : h.tunnels = h'.tunnels
  sweepers : h.sweepers = h'.sweepers
  parts : ∀ number, h.part own number = h'.part own number
  unowned : callsOf own none h.calls = callsOf own none h'.calls

theorem sameParts_of_parts {h' : Hub} (hsweepers : h.sweepers = h'.sweepers)
    (hparts : ∀ number, h.part own number = h'.part own number)
    (hunowned : callsOf own none h.calls = callsOf own none h'.calls) : h.SameParts own h' where
  tunnels := by
    refine List.ext_getElem? fun n => ?_
    have hpart : (h.part own n).tunnels[n]? = (h'.part own n).tunnels[n]? := by rw [hparts n]
    rw [getElem?_tunnels_part, getElem?_tunnels_part] at hpart
    exact hpart
  sweepers := hsweepers
  parts := hparts
  unowned := hunowned

/-- Two steps about different tunnels can be taken the other way round. -/
theorem IsParted.commute (hparted : h.IsParted own) (hne : other ≠ number) {middle last : Hub}
    {first second : Move} (hfirst : h.IsStepFor own number first)
    (hmiddle : h.after? first = some middle) (hsecond : middle.IsStepFor own other second)
    (hlast : middle.after? second = some last) :
    ∃ middle' last', h.IsStepFor own other second ∧ h.after? second = some middle' ∧
      middle'.IsStepFor own number first ∧ middle'.after? first = some last' ∧
      last.SameParts own last' := by
  have hchanges := hparted.changesAt_after? hfirst hmiddle
  have hparted' := hparted.of_changesAt hchanges
  have hchangesLast := hparted'.changesAt_after? hsecond hlast
  have hsecond' := (hchanges.isStepFor_iff hne second).mp hsecond
  -- The second step is taken first.
  have hpartSecond := hparted.part_after?_of_changesAt hchanges hne hsecond'
  rw [hlast] at hpartSecond
  obtain ⟨middle', hmiddle', hothers⟩ := Option.map_eq_some_iff.mp hpartSecond.symm
  have hchanges' := hparted.changesAt_after? hsecond' hmiddle'
  have hfirst' := (hchanges'.isStepFor_iff hne.symm first).mpr hfirst
  -- The first one is taken then.
  have hpartFirst := hparted.part_after?_of_changesAt hchanges' hne.symm hfirst
  rw [hmiddle] at hpartFirst
  obtain ⟨last', hlast', hnumbers⟩ := Option.map_eq_some_iff.mp hpartFirst
  have hchangesLast' := (hparted.of_changesAt hchanges').changesAt_after? hfirst' hlast'
  refine ⟨middle', last', hsecond', hmiddle', hfirst', hlast',
    sameParts_of_parts ?_ (fun n => ?_) ?_⟩
  · rw [hchangesLast.sweepers, hchanges.sweepers, hchangesLast'.sweepers, hchanges'.sweepers]
  · by_cases hnumber : n = number
    · subst hnumber
      rw [hchangesLast.part_eq hparted' hne.symm, hnumbers]
    · have hlastEq := hchangesLast'.part_eq (hparted.of_changesAt hchanges') hnumber
      by_cases hother : n = other
      · subst hother
        rw [hlastEq, hothers]
      · rw [hlastEq, hchangesLast.part_eq hparted' hother, hchanges.part_eq hparted hnumber,
          hchanges'.part_eq hparted hother]
  · have hnone (n : Nat) : none ≠ some n := (Option.some_ne_none n).symm
    rw [hchangesLast.calls.others none (hnone other), hchanges.calls.others none (hnone number),
      hchangesLast'.calls.others none (hnone number), hchanges'.calls.others none (hnone other)]

/-! ## Steps of a part -/

theorem onlyAt_identities (number : Nat) (tunnels : List Tunnel) :
    (Tunnel.onlyAt number tunnels).map (·.identity) = tunnels.map (·.identity) := by
  refine List.ext_getElem? fun n => ?_
  rw [List.getElem?_map, List.getElem?_map, Tunnel.getElem?_onlyAt]
  split
  · rfl
  · exact Option.map_map ..

/-- A step about a tunnel is one about it in its part. -/
theorem IsStepFor.part (hfor : h.IsStepFor own number move) :
    (h.part own number).IsStepFor own number (h.moveIn own number move) := by
  cases hfor with
  | client hown haction =>
      exact .client hown
        ((CallAction.isFor_congr (onlyAt_identities number h.tunnels) _).mpr haction)
  | call hc hown => exact .call (getElem?_calls_part hc hown) hown
  | stream hs htunnel => exact .stream (getElem?_streams_part hs htunnel) htunnel
  | feed arrivals => exact .feed arrivals
  | setManner manner => exact .setManner manner

/-- Every step about a tunnel in its part is one of the whole. -/
theorem IsStepFor.exists_move (hfor : (h.part own number).IsStepFor own number move) :
    ∃ whole, h.IsStepFor own number whole ∧ h.moveIn own number whole = move := by
  cases hfor with
  | client hown haction =>
      exact ⟨_, .client hown
        ((CallAction.isFor_congr (onlyAt_identities number h.tunnels) _).mp haction), rfl⟩
  | call hc hown =>
      simp only [Hub.part, List.getElem?_map] at hc
      obtain ⟨c, hkept, rfl⟩ := Option.map_eq_some_iff.mp hc
      obtain ⟨i, hcall, _, hplace⟩ := exists_placeOf hkept
      exact ⟨.go (.call i), .call hcall hown, congrArg (Move.go ∘ Agent.call) hplace⟩
  | stream hs htunnel =>
      obtain ⟨j, hstream, _, hplace⟩ := exists_placeOf hs
      exact ⟨.go (.stream j), .stream hstream htunnel, congrArg (Move.go ∘ Agent.stream) hplace⟩
  | feed arrivals => exact ⟨_, .feed arrivals, rfl⟩
  | setManner manner => exact ⟨_, .setManner manner, rfl⟩

/-! ## Runs in which requests are served -/

/-- The move is a step about the tunnel with this number, or it lets time pass. -/
def ServesAt (own : String → Option Nat) (number : Nat) (h : Hub) (move : Move) : Prop :=
  h.IsStepFor own number move ∨ ∃ time, move = .act (.advance time)

/-- In every move some tunnel is served. -/
def Serves (own : String → Option Nat) (log : List Record) : Prop :=
  ∀ r ∈ log, ∃ number, r.before.ServesAt own number r.move

/-- The tunnel that a move is about, if it is about one. -/
def about? (own : String → Option Nat) (h : Hub) : Move → Option Nat
  | .act (.call name _) => own name
  | .act (.feed number _) | .act (.setManner number _) => some number
  | .go (.call i) => h.calls[i]?.bind (own ·.name)
  | .go (.stream j) => h.streams[j]?.map (·.tunnel)
  | _ => none

theorem IsStepFor.about?_eq (hfor : h.IsStepFor own number move) :
    h.about? own move = some number := by
  cases hfor with
  | client hown _ => exact hown
  | call hc hown =>
      simp only [about?, hc, Option.bind_some]
      exact hown
  | stream hs htunnel => simp only [about?, hs, Option.map_some, htunnel]
  | feed _ | setManner _ => rfl

theorem isStepFor_iff_about? : h.IsStepFor own number move ↔
    h.about? own move = some number ∧
      ∀ name action, move = .act (.call name action) → action.IsFor number h.tunnels := by
  constructor
  · intro hfor
    refine ⟨hfor.about?_eq, ?_⟩
    rintro name action rfl
    cases hfor with
    | client _ haction => exact haction
  · rintro ⟨habout, haction⟩
    cases move with
    | act action =>
        cases action with
        | call name action => exact .client habout (haction name action rfl)
        | feed other arrivals =>
            obtain rfl := Option.some.inj habout
            exact .feed arrivals
        | setManner other manner =>
            obtain rfl := Option.some.inj habout
            exact .setManner manner
        | «open» _ _ _ _ | describe _ _ | put _ _ | get _ | remove _ | advance _ => cases habout
    | go agent =>
        cases agent with
        | call i =>
            obtain ⟨c, hc, hown⟩ := Option.bind_eq_some_iff.mp habout
            exact .call hc hown
        | stream j =>
            obtain ⟨s, hs, htunnel⟩ := Option.map_eq_some_iff.mp habout
            exact .stream hs htunnel
        | sweeper k => cases habout
    | takeNews => cases habout

instance (own : String → Option Nat) (number : Nat) (h : Hub) (move : Move) :
    Decidable (h.IsStepFor own number move) :=
  have : Decidable (∀ name action, move = .act (.call name action) →
      action.IsFor number h.tunnels) :=
    match move with
    | .act (.call _ action) => decidable_of_iff (action.IsFor number h.tunnels) (by simp)
    | .act (.open _ _ _ _) | .act (.feed _ _) | .act (.setManner _ _) | .act (.describe _ _)
    | .act (.put _ _) | .act (.get _) | .act (.remove _) | .act (.advance _) | .go _
    | .takeNews => .isTrue (by simp)
  decidable_of_iff _ isStepFor_iff_about?.symm

/-- A move with the tunnel that it is about, and with the numbers that calls and streams have in
the part. -/
def label (own : String → Option Nat) (h : Hub) (move : Move) : Option Nat × Move :=
  match h.about? own move with
  | some number => (some number, h.moveIn own number move)
  | none => (none, move)

theorem IsStepFor.label_eq (hfor : h.IsStepFor own number move) :
    h.label own move = (some number, h.moveIn own number move) := by
  unfold label
  rw [hfor.about?_eq]

/-- The moves of a run, each with its label. -/
def labels (own : String → Option Nat) (log : List Record) : List (Option Nat × Move) :=
  log.map fun r => r.before.label own r.move

/-- What is to be done about the tunnel with this number, or about all. -/
def stepsOn (number : Nat) (plan : List (Option Nat × Move)) : List Move :=
  (plan.filter fun x => x.1.all (· = number)).map (·.2)

theorem stepsOn_append (number : Nat) (plan rest : List (Option Nat × Move)) :
    stepsOn number (plan ++ rest) = stepsOn number plan ++ stepsOn number rest := by
  simp [stepsOn]

theorem stepsOn_self (number : Nat) (move : Move) :
    stepsOn number [(some number, move)] = [move] := by
  simp [stepsOn]

theorem stepsOn_all (number : Nat) (move : Move) : stepsOn number [(none, move)] = [move] := rfl

theorem stepsOn_of_ne (hne : other ≠ number) (move : Move) :
    stepsOn number [(some other, move)] = [] := by
  simp [stepsOn, hne]

/-- The part that is about the tunnel with this number can do what a plan has for it, and is this
part then. -/
def Follows (own : String → Option Nat) (number : Nat) (plan : List (Option Nat × Move))
    (part last : Hub) : Prop :=
  ∃ log, Run part log last ∧ log.map (·.move) = stepsOn number plan ∧
    ∀ r ∈ log, r.before.ServesAt own number r.move

variable {plan : List (Option Nat × Move)} {log log' : List Record}
  {part start last last' : Hub}

theorem Follows.snoc (hfollows : Follows own number plan part h) {label : Option Nat × Move}
    (hlabel : stepsOn number [label] = [move]) (hmove : h.after? move = some next)
    (hserves : h.ServesAt own number move) : Follows own number (plan ++ [label]) part next := by
  obtain ⟨log, hrun, hmoves, hall⟩ := hfollows
  refine ⟨_, hrun.snoc hmove, ?_, fun r hr => ?_⟩
  · rw [List.map_append, hmoves, stepsOn_append, hlabel]
    rfl
  · rcases List.mem_append.mp hr with hbefore | hlast
    · exact hall r hbefore
    · rw [List.mem_singleton.mp hlast]
      exact hserves

theorem Follows.skip (hfollows : Follows own number plan part h) {label : Option Nat × Move}
    (hlabel : stepsOn number [label] = []) : Follows own number (plan ++ [label]) part h := by
  obtain ⟨log, hrun, hmoves, hall⟩ := hfollows
  exact ⟨log, hrun, by rw [hmoves, stepsOn_append, hlabel, List.append_nil], hall⟩

theorem Follows.unique (hfollows : Follows own number plan part last)
    {plan' : List (Option Nat × Move)} (hfollows' : Follows own number plan' part last')
    (hsteps : stepsOn number plan = stepsOn number plan') : last = last' := by
  obtain ⟨log, hrun, hmoves, _⟩ := hfollows
  obtain ⟨log', hrun', hmoves', _⟩ := hfollows'
  exact (hrun.unique hrun' (by rw [hmoves, hmoves', hsteps])).2

theorem IsParted.advance (hparted : h.IsParted own) (time : Nat) :
    (h.apply (.advance time)).2.IsParted own :=
  { hparted with }

/-- In a run in which tunnels are served each part makes a run of its own, and nobody else does
anything. -/
theorem Run.parts (hrun : Run start log last) (hparted : start.IsParted own)
    (hserves : Serves own log) :
    last.IsParted own ∧
      (∀ number, Follows own number (labels own log) (start.part own number)
        (last.part own number)) ∧
      last.sweepers = start.sweepers ∧
      callsOf own none last.calls = callsOf own none start.calls := by
  induction hrun with
  | nil => exact ⟨hparted, fun _ => ⟨[], .nil, rfl, by simp⟩, rfl, rfl⟩
  | @snoc log h next move hrun hmove ih =>
      obtain ⟨hbefore, hfollows, hsweepers, hunowned⟩ :=
        ih fun r hr => hserves r (List.mem_append_left _ hr)
      have hlabels : labels own (log ++ [⟨h, move, next⟩]) =
          labels own log ++ [h.label own move] := List.map_append
      rw [hlabels]
      obtain ⟨number, hfor | ⟨time, rfl⟩⟩ :=
        hserves _ (List.mem_append_right log List.mem_cons_self)
      · -- The step is the next of one part, and leaves the others where they were.
        have hchanges := hbefore.changesAt_after? hfor hmove
        refine ⟨hbefore.of_changesAt hchanges, fun n => ?_, ?_, ?_⟩
        · rw [hfor.label_eq]
          by_cases hnumber : number = n
          · subst hnumber
            have hstep := hbefore.part_after? hfor
            rw [hmove, Option.map_some] at hstep
            exact (hfollows number).snoc (stepsOn_self number _) hstep.symm (.inl hfor.part)
          · rw [hchanges.part_eq hbefore (Ne.symm hnumber)]
            exact (hfollows n).skip (stepsOn_of_ne hnumber _)
        · rw [hchanges.sweepers, hsweepers]
        · rw [hchanges.calls.others none (Option.some_ne_none number).symm, hunowned]
      · cases hmove
        exact ⟨hbefore.advance time,
          fun n => (hfollows n).snoc (stepsOn_all n _) rfl (.inr ⟨time, rfl⟩), hsweepers, hunowned⟩

/-- Runs in which each tunnel is served by the same steps lead to the same parts, however the steps
about one tunnel come between those about others. -/
theorem Run.sameParts (hrun : Run start log last) (hrun' : Run start log' last')
    (hparted : start.IsParted own) (hserves : Serves own log) (hserves' : Serves own log')
    (hsteps : ∀ number, stepsOn number (labels own log) = stepsOn number (labels own log')) :
    last.SameParts own last' := by
  obtain ⟨_, hfollows, hsweepers, hunowned⟩ := hrun.parts hparted hserves
  obtain ⟨_, hfollows', hsweepers', hunowned'⟩ := hrun'.parts hparted hserves'
  exact sameParts_of_parts (hsweepers.trans hsweepers'.symm)
    (fun number => (hfollows number).unique (hfollows' number) (hsteps number))
    (hunowned.trans hunowned'.symm)

/-! ## Plans -/

/-- In a plan that is for all tunnels time passes. -/
def IsTimed (x : Option Nat × Move) : Prop :=
  x.1 = none ↔ ∃ time, x.2 = .act (.advance time)

theorem isTimed_of_serves (hserves : Serves own log) {x : Option Nat × Move}
    (hx : x ∈ labels own log) : IsTimed x := by
  obtain ⟨r, hr, rfl⟩ := List.mem_map.mp hx
  obtain ⟨number, hfor | ⟨time, htime⟩⟩ := hserves r hr
  · rw [hfor.label_eq]
    constructor
    · intro hnone
      cases hnone
    · rintro ⟨time, htime⟩
      have hpart := hfor.part
      dsimp only at htime
      rw [htime] at hpart
      cases hpart
  · rw [htime]
    exact ⟨fun _ => ⟨time, rfl⟩, fun _ => rfl⟩

theorem Follows.exists_next {label : Option Nat × Move}
    (hfollows : Follows own number (label :: plan) part last)
    (hlabel : stepsOn number [label] = [move]) :
    ∃ next, part.after? move = some next ∧ part.ServesAt own number move ∧
      Follows own number plan next last := by
  obtain ⟨log, hrun, hmoves, hall⟩ := hfollows
  rw [← List.singleton_append, stepsOn_append, hlabel] at hmoves
  obtain ⟨next, rest, rfl, hmove, hrest, hmoves⟩ := hrun.exists_cons hmoves
  exact ⟨next, hmove, hall _ List.mem_cons_self, rest, hrest, hmoves,
    fun r hr => hall r (List.mem_cons_of_mem _ hr)⟩

theorem Follows.of_cons {label : Option Nat × Move}
    (hfollows : Follows own number (label :: plan) part last)
    (hlabel : stepsOn number [label] = []) : Follows own number plan part last := by
  obtain ⟨log, hrun, hmoves, hall⟩ := hfollows
  rw [← List.singleton_append, stepsOn_append, hlabel, List.nil_append] at hmoves
  exact ⟨log, hrun, hmoves, hall⟩

/-- What each part can do by itself the hub can do, in whatever order the plan has it. -/
theorem IsParted.exists_run (hparted : h.IsParted own) (htimed : ∀ x ∈ plan, IsTimed x)
    (hfollows : ∀ number, ∃ last, Follows own number plan (h.part own number) last) :
    ∃ log last, Run h log last ∧ Serves own log ∧ labels own log = plan := by
  induction plan generalizing h with
  | nil => exact ⟨[], h, .nil, by simp [Serves], rfl⟩
  | cons x rest ih =>
      obtain ⟨about, move⟩ := x
      have hrest : ∀ x ∈ rest, IsTimed x := fun x hx => htimed x (List.mem_cons_of_mem _ hx)
      have hfirst := htimed _ List.mem_cons_self
      cases about with
      | none =>
          -- Time passes in all parts at once.
          obtain ⟨time, rfl⟩ := hfirst.mp rfl
          obtain ⟨log, last, hrun, hserves, rfl⟩ := ih (hparted.advance time) hrest fun n => by
            obtain ⟨last, hlast⟩ := hfollows n
            obtain ⟨_, hnext, _, hafter⟩ := hlast.exists_next (stepsOn_all n _)
            cases hnext
            exact ⟨last, hafter⟩
          have hserved : ∃ n, h.ServesAt own n (.act (.advance time)) := ⟨0, .inr ⟨time, rfl⟩⟩
          exact ⟨⟨h, .act (.advance time), _⟩ :: log, last, hrun.cons rfl,
            List.forall_mem_cons.mpr ⟨hserved, hserves⟩, rfl⟩
      | some number =>
          obtain ⟨_, hlast⟩ := hfollows number
          obtain ⟨partNext, hstep, hserves, hafter⟩ := hlast.exists_next (stepsOn_self number _)
          have hfor : (h.part own number).IsStepFor own number move := by
            rcases hserves with hfor | htime
            · exact hfor
            · cases hfirst.mpr htime
          -- The step of the part is one of the whole, and the other parts have yet to make theirs.
          obtain ⟨whole, hwhole, rfl⟩ := hfor.exists_move
          rw [← hparted.part_after? hwhole] at hstep
          obtain ⟨next, hnext, rfl⟩ := Option.map_eq_some_iff.mp hstep
          have hchanges := hparted.changesAt_after? hwhole hnext
          obtain ⟨log, last, hrun, hserves, rfl⟩ :=
            ih (hparted.of_changesAt hchanges) hrest fun n => by
              by_cases hnumber : n = number
              · subst hnumber
                exact ⟨_, hafter⟩
              · obtain ⟨last, hlast⟩ := hfollows n
                rw [hchanges.part_eq hparted hnumber]
                exact ⟨last, hlast.of_cons (stepsOn_of_ne (Ne.symm hnumber) _)⟩
          have hserved : ∃ n, h.ServesAt own n whole := ⟨number, .inl hwhole⟩
          exact ⟨⟨h, whole, next⟩ :: log, last, hrun.cons hnext,
            List.forall_mem_cons.mpr ⟨hserved, hserves⟩,
            congrArg (· :: labels own log) hwhole.label_eq⟩

/-- The plan has what is in the other, and what is about each tunnel in the same order. -/
structure Rearranges (plan plan' : List (Option Nat × Move)) : Prop where
  perm : plan.Perm plan'
  steps : ∀ number, stepsOn number plan = stepsOn number plan'

/-- What is done in a run can be done in every other order that has the steps about each tunnel in
the same order. -/
theorem Run.exists_rearranged (hrun : Run start log last) (hparted : start.IsParted own)
    (hserves : Serves own log) (hplan : Rearranges plan (labels own log)) :
    ∃ log' last', Run start log' last' ∧ Serves own log' ∧ labels own log' = plan := by
  refine hparted.exists_run (fun x hx => ?_) fun number => ?_
  · exact isTimed_of_serves hserves (hplan.perm.subset hx)
  · obtain ⟨part, hpart, hmoves, hall⟩ := (hrun.parts hparted hserves).2.1 number
    exact ⟨_, part, hpart, hmoves.trans (hplan.steps number).symm, hall⟩

/-! ## What clients are told -/

/-- What the client that makes its request by this name has been told. -/
def told (h : Hub) (name : String) : List Event :=
  ((h.callNumber? name).map h.eventsAt).getD []

theorem told_part (h : Hub) {name : String} (hown : own name = some number) :
    (h.part own number).told name = h.told name := by
  unfold told
  rw [h.callNumber?_part hown]
  cases hfound : h.callNumber? name with
  | none => rfl
  | some i =>
      obtain ⟨hlt, hname, _⟩ := List.findIdx?_eq_some_iff_getElem.mp hfound
      have hc : h.calls[i]? = some h.calls[i] := List.getElem?_eq_getElem hlt
      rw [← of_decide_eq_true hname] at hown
      simp only [Option.map_some, Option.getD_some, eventsAt, hc, getElem?_calls_part hc hown]
      rfl

theorem SameParts.told_eq (hsame : last.SameParts own last') {name : String}
    (hown : own name = some number) : last.told name = last'.told name := by
  rw [← last.told_part hown, ← last'.told_part hown, hsame.parts number]

/-- Nothing that is about the tunnel with this number has changed: neither the tunnel, nor what is
registered of it and found under its identity, nor the calls and the streams that are about it. -/
structure LeavesAlone (own : String → Option Nat) (number : Nat) (h next : Hub) : Prop where
  tunnel : next.tunnels[number]? = h.tunnels[number]?
  registered : next.registry.about number = h.registry.about number
  found : ∀ t, h.tunnels[number]? = some t →
    next.registry.find? t.identity.text = h.registry.find? t.identity.text
  part : next.part own number = h.part own number

theorem ChangesAt.leavesAlone (hchanges : h.ChangesAt own number next) (hparted : h.IsParted own)
    (hne : other ≠ number) : h.LeavesAlone own other next where
  tunnel := hchanges.tunnels.others other hne
  registered := hchanges.registry.others other hne
  found t ht := by
    have ht' : next.tunnels[other]? = some t := by rw [hchanges.tunnels.others other hne, ht]
    rw [← Registry.find?_about (hparted.reserves ht),
      ← Registry.find?_about ((hparted.of_changesAt hchanges).reserves ht'),
      hchanges.registry.others other hne]
  part := hchanges.part_eq hparted hne

/-- In every hub whose tunnels have different identities and are registered under these: a step
about one tunnel leaves every other alone. Two steps about different tunnels can be taken the other
way round, and lead to the same. The steps of a run can be taken in every other order that has those
about each tunnel in the same order; this leads to the same, and tells every client the same. -/
theorem tunnels_do_not_interfere (hparted : h.IsParted own) :
    (∀ number move next, h.IsStepFor own number move → h.after? move = some next →
      next.IsParted own ∧ ∀ other, other ≠ number → h.LeavesAlone own other next) ∧
    (∀ number other first second middle last, other ≠ number →
      h.IsStepFor own number first → h.after? first = some middle →
      middle.IsStepFor own other second → middle.after? second = some last →
      ∃ middle' last', h.IsStepFor own other second ∧ h.after? second = some middle' ∧
        middle'.IsStepFor own number first ∧ middle'.after? first = some last' ∧
        last.SameParts own last') ∧
    ∀ log last plan, Run h log last → Serves own log → Rearranges plan (labels own log) →
      (∃ log' last', Run h log' last' ∧ Serves own log' ∧ labels own log' = plan) ∧
      ∀ log' last', Run h log' last' → Serves own log' → labels own log' = plan →
        last.SameParts own last' ∧
          ∀ name number, own name = some number → last.told name = last'.told name := by
  refine ⟨?_, ?_, ?_⟩
  · intro number move next hfor hmove
    have hchanges := hparted.changesAt_after? hfor hmove
    exact ⟨hparted.of_changesAt hchanges, fun other hne => hchanges.leavesAlone hparted hne⟩
  · intro number other first second middle last hne hfirst hmiddle hsecond hlast
    exact hparted.commute hne hfirst hmiddle hsecond hlast
  · intro log last plan hrun hserves hplan
    refine ⟨hrun.exists_rearranged hparted hserves hplan, ?_⟩
    rintro log' last' hrun' hserves' rfl
    have hsame := hrun.sameParts hrun' hparted hserves hserves' fun number =>
      (hplan.steps number).symm
    exact ⟨hsame, fun name number hown => hsame.told_eq hown⟩

/-- Requests by the name of reads are about the first tunnel, those by writes about the second. -/
def ofTwo (name : String) : Option Nat :=
  if name = "reads" then some 0 else if name = "writes" then some 1 else none

/-- Two tunnels, of which the first has something to read. -/
def twoTunnels : Hub where
  registry := { entries := [⟨(Identity.random 0).text, 0, 0⟩, ⟨(Identity.random 1).text, 1, 0⟩] }
  tunnels :=
    [{ identity := .random 0, reader := ({} : Reader).feed [.data (Utf8.ofString "3.nop;")] },
      { identity := .random 1 }]

theorem isParted_twoTunnels : twoTunnels.IsParted ofTwo where
  distinct := by decide
  proper := by simp [Registry.IsProper, twoTunnels]
  calls := by simp [twoTunnels]

/-- A request for what is to be read from the first tunnel. -/
def readsFirst : Action :=
  .call "reads" (.request
    { query := Operation.readPrefix ++ (Identity.random 0).text, connection := .ok 0 })

/-- A request that writes an instruction to the second tunnel. -/
def writesSecond : Action :=
  .call "writes" (.request
    { query := Operation.writePrefix ++ (Identity.random 1).text, connection := .ok 0,
      upload := { parts := [.chunk (Utf8.ofString "4.sync;")] } })

/-- What is to be done for the request that reads, with the numbers of its part. -/
def toRead : List (Option Nat × Move) :=
  ([.act readsFirst, .go (.call 0), .go (.stream 0), .go (.stream 0), .go (.call 0)] :
    List Move).map (some 0, ·)

/-- What is to be done for the request that writes, with the numbers of its part. -/
def toWrite : List (Option Nat × Move) :=
  ([.act writesSecond, .go (.call 0), .go (.call 0), .go (.call 0), .go (.call 0)] :
    List Move).map (some 1, ·)

/-- The request that reads is served before the one that writes comes. -/
def inTurn : List Move :=
  [.act readsFirst, .go (.call 0), .go (.stream 0), .go (.stream 0), .go (.call 0),
    .act writesSecond, .go (.call 1), .go (.call 1), .go (.call 1), .go (.call 1)]

/-- The request that writes can be served first, and both are answered as in turn. -/
theorem told_the_same_whoever_comes_first :
    ∃ log last, Run twoTunnels log last ∧ labels ofTwo log = toWrite ++ toRead ∧
      last.told "reads" = [.head .reading, .chunk (Utf8.ofString "3.nop;")] ∧
      last.told "writes" = [.head .written, .finished] := by
  obtain ⟨_, _, hplans⟩ := tunnels_do_not_interfere isParted_twoTunnels
  have hrun := run_replay twoTunnels inTurn
  have hsteps : ∀ r ∈ (twoTunnels.replay inTurn).1,
      r.before.IsStepFor ofTwo 0 r.move ∨ r.before.IsStepFor ofTwo 1 r.move := by decide
  have hserves : Serves ofTwo (twoTunnels.replay inTurn).1 := fun r hr =>
    (hsteps r hr).elim (fun hfor => ⟨0, .inl hfor⟩) fun hfor => ⟨1, .inl hfor⟩
  have hlabels : labels ofTwo (twoTunnels.replay inTurn).1 = toRead ++ toWrite := rfl
  have hplan : Rearranges (toWrite ++ toRead) (labels ofTwo (twoTunnels.replay inTurn).1) := by
    rw [hlabels]
    refine ⟨List.perm_append_comm, fun number => ?_⟩
    rcases number with _ | _ | number <;> rfl
  obtain ⟨⟨log, last, hother, hserves', hlog⟩, hsame⟩ := hplans _ _ _ hrun hserves hplan
  obtain ⟨_, htold⟩ := hsame log last hother hserves' hlog
  refine ⟨log, last, hother, hlog, ?_, ?_⟩
  · rw [← htold "reads" 0 rfl]
    decide
  · rw [← htold "writes" 1 rfl]
    decide

end Hub

end LongPollTunnel

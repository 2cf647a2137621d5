import LongPollTunnel.Proofs.Errands
import LongPollTunnel.Proofs.Streaming

/-! # Whose turn a move is

A call has a turn when it goes on or its user acts through it, and a stream or a sweeper when it
goes on. Main statement: an agent whose turn it was not is where it was; its news may have been
taken, its client may have read or let go of the response, and it may have been asked to stop.
-/

namespace LongPollTunnel.Hub

variable {h next start : Hub} {i j k : Nat} {c : Call} {s : Stream} {w : Sweeper} {move : Move}
  {log : List Record}

/-- The call with this number goes on, or its user acts through it. -/
def turnsTo (h : Hub) (move : Move) (i : Nat) : Prop :=
  match move with
  | .go agent => agent = .call i
  | .act (.call name _) => (h.withCall name).1 = i
  | .act _ | .takeNews => False

/-! ## Calls -/

theorem call_of_set_ne {after : Call} (hc : h.calls[i]? = some c) (hne : j ≠ i)
    (heq : next.calls = h.calls.set j after) : next.calls[i]? = some c := by
  rw [heq, List.getElem?_set_ne hne]
  exact hc

/-- A new call leaves the others where they are. -/
theorem call_withCall (hc : h.calls[i]? = some c) (name : String) :
    (h.withCall name).2.calls[i]? = some c := by
  rcases h.calls_withCall name with heq | ⟨_, heq⟩
  · rw [heq]
    exact hc
  · rw [heq, List.getElem?_append_left (List.getElem?_eq_some_iff.mp hc).1]
    exact hc

/-- What is done through one call does nothing to another. -/
theorem call_apply_of_others (hc : h.calls[i]? = some c) {action : Action}
    (hother : ¬ h.turnsTo (.act action) i) : (h.apply action).2.calls[i]? = some c := by
  cases action with
  | call name action =>
      have hcalls := call_withCall hc name
      rcases callStep_apply h name action with heq | ⟨c', _, hstep⟩
      · rw [heq]
        exact hcalls
      · obtain ⟨after, heq, _⟩ := hstep.calls
        exact call_of_set_ne hcalls hother heq
  | _ =>
      rw [calls_apply h (by simp)]
      exact hc

/-- A call whose turn it is not keeps all but its news. -/
theorem call_of_others (hmove : h.after? move = some next) (hother : ¬ h.turnsTo move i)
    (hc : h.calls[i]? = some c) : ∃ events, next.calls[i]? = some { c with events } := by
  cases move with
  | act action =>
      cases hmove
      exact ⟨c.events, call_apply_of_others hc hother⟩
  | takeNews =>
      cases hmove
      refine ⟨[], ?_⟩
      simp [withoutNews, hc]
  | go agent =>
      refine ⟨c.events, ?_⟩
      cases agent with
      | call j =>
          obtain ⟨c', _, hstep⟩ := callStep_resumeCall hmove
          obtain ⟨after, heq, _⟩ := hstep.calls
          have hne : j ≠ i := fun hself => hother (congrArg Agent.call hself)
          exact call_of_set_ne hc hne heq
      | stream j =>
          obtain ⟨_, _, _, _, _, _, _, rfl⟩ := streamStep_resumeStream hmove
          exact hc
      | sweeper k =>
          rw [calls_resumeSweeper hmove]
          exact hc

/-- The run lemma, by induction over the run. -/
theorem call_of_run (hrun : Run start log h) (hother : ∀ r ∈ log, ¬ r.before.turnsTo r.move i)
    (hc : start.calls[i]? = some c) : ∃ events, h.calls[i]? = some { c with events } := by
  induction hrun with
  | nil => exact ⟨c.events, hc⟩
  | snoc _ hmove ih =>
      obtain ⟨events, hbefore⟩ := ih fun r hr => hother r (List.mem_append_left _ hr)
      have hlast := hother _ (List.mem_append_right _ (List.mem_singleton_self _))
      obtain ⟨later, hafter⟩ := call_of_others hmove hlast hbefore
      exact ⟨later, hafter⟩

/-! ## Streams -/

theorem SameStreams.stream (hsame : h.SameStreams next) (hs : h.streams[j]? = some s) :
    ∃ s', next.streams[j]? = some s' ∧ s.SameButClient s' := by
  have hlt := (List.getElem?_eq_some_iff.mp hs).1
  have hlt' : j < next.streams.length := by rwa [← List.Forall₂.length_eq hsame]
  refine ⟨next.streams[j], List.getElem?_eq_getElem hlt', ?_⟩
  obtain ⟨_, rfl⟩ := List.getElem?_eq_some_iff.mp hs
  exact (List.forall₂_iff_get.mp hsame).2 j hlt hlt'

/-- A stream that does not go on is the same up to what its client does. -/
theorem stream_of_others (hmove : h.after? move = some next) (hother : move ≠ .go (.stream j))
    (hs : h.streams[j]? = some s) : ∃ s', next.streams[j]? = some s' ∧ s.SameButClient s' := by
  cases streamsMove_after? hmove with
  | same _ hsame => exact hsame.stream hs
  | start hstart =>
      obtain ⟨_, _, _, _, _, _, _, heq⟩ := hstart
      refine ⟨s, ?_, s.sameButClient_refl⟩
      rw [heq, List.getElem?_append_left (List.getElem?_eq_some_iff.mp hs).1]
      exact hs
  | @step j' s₀ s' t after hs₀ ht hstep =>
      have hne : j' ≠ j := fun hself => hother (congrArg (Move.go ∘ Agent.stream) hself)
      exact ⟨s, (List.getElem?_set_ne hne).trans hs, s.sameButClient_refl⟩

/-- The run lemma for streams: of what a stream is, only what its client sees may change. -/
theorem stream_of_run (hrun : Run start log h) (hother : ∀ r ∈ log, r.move ≠ .go (.stream j))
    (hs : start.streams[j]? = some s) :
    ∃ s', h.streams[j]? = some s' ∧ s'.tunnel = s.tunnel ∧ s'.ticket = s.ticket ∧
      s'.phase = s.phase := by
  induction hrun with
  | nil => exact ⟨s, hs, rfl, rfl, rfl⟩
  | snoc _ hmove ih =>
      obtain ⟨middle, hmiddle, htunnel, hticket, hphase⟩ :=
        ih fun r hr => hother r (List.mem_append_left _ hr)
      have hlast := hother _ (List.mem_append_right _ (List.mem_singleton_self _))
      obtain ⟨s', hs', hsame⟩ := stream_of_others hmove hlast hmiddle
      exact ⟨s', hs', hsame.tunnel.trans htunnel, hsame.ticket.trans hticket,
        hsame.phase.trans hphase⟩

/-! ## Sweepers -/

theorem sweepers_giveBack (h : Hub) (claims : List Claim) (awaited : Option Claim) :
    (h.giveBack claims awaited).sweepers = h.sweepers := by
  rw [giveBack_eq]

/-- Nobody stops a sweeper by dropping a task. -/
theorem sweepers_abortTask (h : Hub) (i : Nat) (c : Call) :
    (h.abortTask i c).sweepers = h.sweepers := by
  rw [abortTask_eq]
  exact sweepers_giveBack h _ _

theorem sweepers_releaseAll (h : Hub) (i : Nat) (c : Call) :
    (h.releaseAll i c).sweepers = h.sweepers := by
  rw [releaseAll_eq]
  exact sweepers_giveBack h _ _

theorem sweepers_dropClient (h : Hub) (i : Nat) (c : Call) :
    (h.dropClient i c).sweepers = h.sweepers := by
  rw [← sweepers_abortTask h i c]
  unfold dropClient
  dsimp only
  split
  next body _ => cases body <;> rfl
  · rfl

theorem Starts.sweepers {r : Request} (hstarts : h.Starts i c r next) :
    next.sweepers = h.sweepers := by
  cases hstarts <;> rfl

/-- The sweeper is what it was, but it may have been asked to stop. -/
def Asked (w after : Sweeper) : Prop :=
  ∃ isStopping, (w.isStopping = true → isStopping = true) ∧ after = { w with isStopping }

theorem asked_refl (w : Sweeper) : Asked w w :=
  ⟨w.isStopping, id, rfl⟩

/-- A step of a call asks sweepers to stop at most, and may start one. -/
theorem CallStep.sweeper {cause : Option CallAction} (hstep : CallStep h i c cause next)
    (hw : h.sweepers[k]? = some w) : ∃ after, next.sweepers[k]? = some after ∧ Asked w after := by
  have hsame {hub : Hub} (heq : hub.sweepers = h.sweepers) :
      ∃ after, hub.sweepers[k]? = some after ∧ Asked w after :=
    ⟨w, by rw [heq]; exact hw, asked_refl w⟩
  cases hstep with
  | acquired htask ht hserving =>
      rw [unqueue_leave?_eq_giveBack]
      exact hsame (sweepers_giveBack h _ _)
  | sweep timeout hidle =>
      simp only [startSweep, keepSweep_eq]
      exact hsame rfl
  | sweepOn htask hresume =>
      rw [keepSweep_eq]
      exact hsame rfl
  | keepSweeping hfree hquiet =>
      exact ⟨w, (List.getElem?_append_left (List.getElem?_eq_some_iff.mp hw).1).trans hw,
        asked_refl w⟩
  | stopSweeping =>
      simp only [stopSweepers, setCall, List.getElem?_map, hw, Option.map_some]
      split
      · exact ⟨_, rfl, true, fun _ => rfl, rfl⟩
      · exact ⟨w, rfl, asked_refl w⟩
  | request hidle hfirst hstarts => exact hsame hstarts.sweepers
  | @handle number handling hold t progress after htask ht hstep =>
      cases progress <;> exact hsame rfl
  | abort => exact hsame (sweepers_abortTask h i c)
  | release => exact hsame (sweepers_releaseAll h i c)
  | drop => exact hsame (sweepers_dropClient h i c)
  | _ => exact hsame rfl

theorem sweepers_withCall (h : Hub) (name : String) :
    (h.withCall name).2.sweepers = h.sweepers := by
  unfold withCall
  split <;> rfl

/-- What is done from outside may ask a sweeper to stop, or start another. -/
theorem sweeper_apply (hw : h.sweepers[k]? = some w) (action : Action) :
    ∃ after, (h.apply action).2.sweepers[k]? = some after ∧ Asked w after := by
  cases action with
  | call name action =>
      rw [← sweepers_withCall h name] at hw
      rcases callStep_apply h name action with heq | ⟨_, _, hstep⟩
      · rw [heq]
        exact ⟨w, hw, asked_refl w⟩
      · exact hstep.sweeper hw
  | put identity number =>
      unfold apply
      dsimp only
      split <;> exact ⟨w, hw, asked_refl w⟩
  | describe number shownAs =>
      unfold apply
      dsimp only
      split <;> exact ⟨w, hw, asked_refl w⟩
  | «open» _ _ _ _ | feed _ _ | setManner _ _ | get _ | remove _ | advance _ =>
      exact ⟨w, hw, asked_refl w⟩

/-- A sweeper that does not go on may only be asked to stop. -/
theorem sweeper_of_others (hmove : h.after? move = some next) (hother : move ≠ .go (.sweeper k))
    (hw : h.sweepers[k]? = some w) : ∃ after, next.sweepers[k]? = some after ∧ Asked w after := by
  cases move with
  | act action =>
      cases hmove
      exact sweeper_apply hw action
  | takeNews =>
      cases hmove
      exact ⟨w, hw, asked_refl w⟩
  | go agent =>
      cases agent with
      | call i =>
          obtain ⟨_, _, hstep⟩ := callStep_resumeCall hmove
          exact hstep.sweeper hw
      | stream j =>
          obtain ⟨_, _, _, _, _, _, _, rfl⟩ := streamStep_resumeStream hmove
          exact ⟨w, hw, asked_refl w⟩
      | sweeper k' =>
          obtain ⟨_, _, _, _, _, _, rfl⟩ := sweeperStep_resumeSweeper hmove
          have hne : k' ≠ k := fun hself => hother (congrArg (Move.go ∘ Agent.sweeper) hself)
          exact ⟨w, (List.getElem?_set_ne hne).trans hw, asked_refl w⟩

end LongPollTunnel.Hub

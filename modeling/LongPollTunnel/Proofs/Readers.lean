import LongPollTunnel.Proofs.Carrying
import LongPollTunnel.Proofs.Errands

/-! # Who reads from a tunnel

A call reads only from a tunnel whose reader's seat it holds, and it keeps the seat while it reads.
Main statement: along every run, as long as a stream has not ended, nobody else reads from its
tunnel.
-/

namespace LongPollTunnel

namespace Call

variable {c after : Call}

/-- The call holds the seat of the tunnel that it reads from, if it does. -/
def ReadsAsHolder (c : Call) : Prop :=
  ∀ number, c.source? = some number → ∃ hold, c.readerHold = some hold ∧ hold.tunnel = number

theorem source?_eq_some {number : Nat} : c.source? = some number ↔ c.readsFrom number := by
  unfold source? readsFrom
  cases c.task with
  | none => simp
  | some task => cases task <;> simp [Task.source?]

theorem readsAsHolder_of_none (hnone : c.source? = none) : c.ReadsAsHolder := by
  intro number hsource
  rw [hnone] at hsource
  cases hsource

/-- Only the task and the seat that is held count. -/
theorem ReadsAsHolder.congr (hc : c.ReadsAsHolder) (hsource : after.source? = c.source?)
    (hhold : after.readerHold = c.readerHold) : after.ReadsAsHolder := by
  unfold ReadsAsHolder
  rw [hsource, hhold]
  exact hc

theorem Quiet.readsAsHolder (hquiet : c.Quiet after) (hc : c.ReadsAsHolder) :
    after.ReadsAsHolder := by
  rcases hquiet.source with hsame | hheld
  · exact hc.congr hsame hquiet.readerHold
  · unfold ReadsAsHolder
    rw [hquiet.readerHold]
    exact hheld

theorem source?_takeClosing (c : Call) (number : Nat) (closing : Tunnel.Closing) :
    (c.takeClosing number closing).source? = none := by
  cases closing <;> rfl

theorem source?_takeSweep (c : Call) (progress : Sweep.Progress) :
    (c.takeSweep progress).source? = none := by
  cases progress <;> rfl

theorem source?_answered (c : Call) (head : Head) (body : Body) (hold : Bool) :
    (c.answered head body hold).source? = none := by
  cases hold <;> rfl

end Call

namespace Hub

variable {h next : Hub} {i j : Nat} {c : Call} {s : Stream} {number : Nat} {move : Move}

/-- A request that starts reads from nothing itself: its stream will. -/
theorem Starts.source? {r : Request} (hstarts : h.Starts i c r next) :
    ∃ after, next.calls = h.calls.set i after ∧ after.source? = none := by
  cases hstarts with
  | invalid _ | uncreated _ _ | created _ _ _ | absent _ _ _ =>
      exact ⟨_, rfl, Call.source?_answered _ _ _ _⟩
  | waits _ _ _ _ => exact ⟨_, rfl, rfl⟩

/-- A step puts back a call that reads where it holds the seat. -/
theorem CallStep.readsAsHolder {cause : Option CallAction} (hstep : CallStep h i c cause next)
    (hc : c.ReadsAsHolder) : ∃ after, next.calls = h.calls.set i after ∧ after.ReadsAsHolder := by
  have hnone {after : Call} (hcalls : next.calls = h.calls.set i after)
      (hsource : after.source? = none) :
      ∃ after, next.calls = h.calls.set i after ∧ after.ReadsAsHolder :=
    ⟨after, hcalls, Call.readsAsHolder_of_none hsource⟩
  cases hstep with
  | quiet hquiet => exact ⟨_, rfl, hquiet.readsAsHolder hc⟩
  | use ht huse hquiet => exact ⟨_, rfl, hquiet.readsAsHolder hc⟩
  | look ht huse hquiet => exact ⟨_, rfl, hquiet.readsAsHolder hc⟩
  | take hs htake hquiet => exact ⟨_, rfl, hquiet.readsAsHolder hc⟩
  | keepSweeping hfree hquiet => exact ⟨_, rfl, hquiet.readsAsHolder hc⟩
  | stopSweeping => exact ⟨_, rfl, hc.congr rfl rfl⟩
  | upload hopen => exact ⟨_, rfl, hc.congr rfl rfl⟩
  | draw role hidle ht => exact hnone rfl rfl
  | @acquired role hold t htask ht hserving =>
      exact ⟨_, calls_acquired h i c role hold, Call.readsAsHolder_of_none rfl⟩
  | close hidle ht => exact hnone rfl (Call.source?_takeClosing c _ _)
  | closeOn htask ht => exact hnone rfl (Call.source?_takeClosing c _ _)
  | sweep timeout hidle =>
      simp only [startSweep, keepSweep_eq] at hnone ⊢
      exact hnone rfl (Call.source?_takeSweep c _)
  | sweepOn htask hresume =>
      rw [keepSweep_eq] at hnone ⊢
      exact hnone rfl (Call.source?_takeSweep c _)
  | request hidle hfirst hstarts =>
      obtain ⟨after, hcalls, hsource⟩ := hstarts.source?
      exact hnone hcalls hsource
  | @handle number handling hold t progress after htask ht hstep =>
      cases progress with
      | goOn handling => exact hnone rfl rfl
      | answer head => exact hnone rfl (Call.source?_answered _ _ _ _)
      | stream ticket => exact hnone rfl (Call.source?_answered _ _ _ _)
  | abort => exact hnone (calls_abortTask h i c) rfl
  | release => exact hnone (calls_releaseAll h i c) rfl
  | drop => exact hnone (calls_dropClient h i c) rfl

/-- Every call holds the seat of the tunnel that it reads from. -/
def ReadAsHolders (h : Hub) : Prop :=
  ∀ c ∈ h.calls, c.ReadsAsHolder

theorem ReadAsHolders.of_calls_eq (hreads : h.ReadAsHolders) (hcalls : next.calls = h.calls) :
    next.ReadAsHolders := by
  unfold ReadAsHolders
  rw [hcalls]
  exact hreads

/-- The step lemma: only one call changes. -/
theorem ReadAsHolders.callStep {cause : Option CallAction} (hreads : h.ReadAsHolders)
    (hc : h.calls[i]? = some c) (hstep : CallStep h i c cause next) : next.ReadAsHolders := by
  obtain ⟨after, hcalls, hafter⟩ := hstep.readsAsHolder (hreads c (List.mem_of_getElem? hc))
  intro x hx
  rw [hcalls] at hx
  rcases List.mem_or_eq_of_mem_set hx with hbefore | rfl
  · exact hreads x hbefore
  · exact hafter

theorem ReadAsHolders.withCall (hreads : h.ReadAsHolders) (name : String) :
    (h.withCall name).2.ReadAsHolders := by
  rcases h.calls_withCall name with hsame | ⟨_, hnew⟩
  · exact hreads.of_calls_eq hsame
  · intro x hx
    rw [hnew] at hx
    rcases List.mem_append.mp hx with hbefore | hlast
    · exact hreads x hbefore
    · rw [List.mem_singleton.mp hlast]
      exact Call.readsAsHolder_of_none rfl

/-- Streams and sweepers leave the calls alone. -/
theorem ReadAsHolders.after? (hreads : h.ReadAsHolders) (hmove : h.after? move = some next) :
    next.ReadAsHolders := by
  cases move with
  | act action =>
      cases hmove
      cases action with
      | call name action =>
          have hthere := hreads.withCall name
          rcases callStep_apply h name action with heq | ⟨c, hc, hstep⟩
          · rw [heq]
            exact hthere
          · exact hthere.callStep hc hstep
      | _ => exact hreads.of_calls_eq (calls_apply h (by simp))
  | go agent =>
      cases agent with
      | call i =>
          obtain ⟨c, hc, hstep⟩ := callStep_resumeCall hmove
          exact hreads.callStep hc hstep
      | stream j =>
          obtain ⟨_, _, _, _, _, _, _, rfl⟩ := streamStep_resumeStream hmove
          exact hreads.of_calls_eq rfl
      | sweeper k => exact hreads.of_calls_eq (calls_resumeSweeper hmove)
  | takeNews =>
      cases hmove
      intro x hx
      obtain ⟨before, hbefore, rfl⟩ := List.mem_map.mp hx
      exact (hreads before hbefore).congr rfl rfl

/-- Nobody ever reads who does not hold the seat. -/
theorem readAsHolders_of_reaches (hreaches : Reaches {} h) : h.ReadAsHolders :=
  hreaches.invariant (by simp [ReadAsHolders]) fun _ _ _ hreads hmove => hreads.after? hmove

/-! ## Nobody else reads -/

/-- A ticket is among the claims of one agent only. -/
theorem eq_of_mem_flatMap {α β : Type} {l : List α} {f : α → List β} (hnodup : (l.flatMap f).Nodup)
    {j k : Nat} {a b : α} (ha : l[j]? = some a) (hb : l[k]? = some b) {x : β} (hxa : x ∈ f a)
    (hxb : x ∈ f b) : k = j := by
  by_contra hne
  have hothers : x ∈ (l.eraseIdx j).flatMap f :=
    List.mem_flatMap.mpr ⟨b, List.mem_eraseIdx_iff_getElem?.mpr ⟨k, hne, hb⟩, hxb⟩
  have happend := (flatMap_perm_of_getElem? ha f).nodup hnodup
  exact (List.nodup_append.mp happend).2.2 x hxa x hothers rfl

/-- Whoever acts as the holder of the reader's seat has the ticket of the stream. -/
theorem eq_of_mem_held (hseated : h.IsSeated) (hs : h.streams[j]? = some s)
    (hphase : s.phase ≠ .ended) {t : Tunnel} (ht : h.tunnels[s.tunnel]? = some t) {x : Claim}
    (hx : x ∈ h.held) (hrole : x.role = .reader) (htunnel : x.tunnel = s.tunnel) :
    x = ⟨.reader, s.tunnel, s.ticket⟩ := by
  obtain ⟨role, tunnel, ticket⟩ := x
  obtain rfl : role = .reader := hrole
  obtain rfl : tunnel = s.tunnel := htunnel
  have hserving := isServing_of_goesOn hseated (List.mem_of_getElem? hs) hphase ht
  obtain rfl : ticket = s.ticket := hseated.ticket_eq_of_isServing hx ht hserving
  rfl

/-- While a stream goes on no call reads from its tunnel, for the seat has one holder. -/
theorem not_readsFrom_of_goesOn (hseated : h.IsSeated) (hs : h.streams[j]? = some s)
    (hphase : s.phase ≠ .ended) {t : Tunnel} (ht : h.tunnels[s.tunnel]? = some t)
    (hc : h.calls[i]? = some c) (hreads : c.ReadsAsHolder) : ¬ c.readsFrom s.tunnel := by
  intro hfrom
  obtain ⟨hold, hhold, htunnel⟩ := hreads _ (Call.source?_eq_some.mpr hfrom)
  have hholds : hold.claim .reader ∈ c.holds := by
    simp [Call.holds, hhold]
  have hheld : hold.claim .reader ∈ h.held :=
    List.mem_append_left _ (List.mem_flatMap.mpr
      ⟨c, List.mem_of_getElem? hc, List.mem_append_right _ hholds⟩)
  refine not_mem_claims_of_goesOn hseated (List.mem_of_getElem? hs) hphase
    (List.mem_of_getElem? hc) ?_
  rw [← eq_of_mem_held hseated hs hphase ht hheld rfl htunnel]
  exact List.mem_append_right _ hholds

/-- Nor does another stream go on there. -/
theorem eq_of_goesOn (hseated : h.IsSeated) (hs : h.streams[j]? = some s)
    (hphase : s.phase ≠ .ended) {t : Tunnel} (ht : h.tunnels[s.tunnel]? = some t) {k : Nat}
    {other : Stream} (hother : h.streams[k]? = some other) (hongoing : other.phase ≠ .ended)
    (htunnel : other.tunnel = s.tunnel) : k = j := by
  have hclaim := other.mem_claims_of_goesOn hongoing
  have hheld := mem_held_of_goesOn (List.mem_of_getElem? hother) hongoing
  rw [eq_of_mem_held hseated hs hphase ht hheld rfl htunnel] at hclaim
  have hnodup : (h.streams.flatMap Stream.claims).Nodup :=
    (List.nodup_append.mp (List.nodup_append.mp hseated.nodup).2.1).1
  exact eq_of_mem_flatMap hnodup hs hother (s.mem_claims_of_goesOn hphase) hclaim

/-- Along every run: as long as a stream has not ended, the only move that reads from its tunnel
is its own. -/
theorem eq_of_readsAt (hreaches : Reaches {} h) (hs : h.streams[j]? = some s)
    (hphase : s.phase ≠ .ended) {t : Tunnel} (ht : h.tunnels[s.tunnel]? = some t)
    (hat : h.readsAt move s.tunnel) : move = .go (.stream j) := by
  have hseated := isSeated_of_reaches hreaches
  match move with
  | .go (.call i) =>
      obtain ⟨c, hc, hfrom⟩ := hat
      have hholder := readAsHolders_of_reaches hreaches c (List.mem_of_getElem? hc)
      exact absurd hfrom (not_readsFrom_of_goesOn hseated hs hphase ht hc hholder)
  | .go (.stream k) =>
      obtain ⟨other, hother, htunnel, deadline, hreading⟩ := hat
      rw [eq_of_goesOn hseated hs hphase ht hother (by simp [hreading]) htunnel]
  | .go (.sweeper _) | .act _ | .takeNews => cases hat

end Hub

end LongPollTunnel

import LongPollTunnel.Proofs.Errands
import LongPollTunnel.Proofs.Locality

/-! # Hubs that stay parted

Tunnels are kept apart as long as none is opened under the identity of another, none is registered
under another's, and the requests of a call are about its own tunnel only. Whatever else is done,
by users of tunnels, by sweepers, or as time passes, makes no difference. Main statement: in every
run in which that is so the hub stays parted.
-/

namespace LongPollTunnel

theorem EachBecomes.identities_eq {may : Nat → Tunnel.Rights} {tunnels after : List Tunnel}
    (heach : EachBecomes may tunnels after) :
    after.map (·.identity) = tunnels.map (·.identity) := by
  refine List.ext_getElem? fun n => ?_
  rw [List.getElem?_map, List.getElem?_map]
  cases ht : tunnels[n]? with
  | none =>
      have hnone : after[n]? = none := by
        rw [List.getElem?_eq_none_iff, heach.length_eq]
        exact List.getElem?_eq_none_iff.mp ht
      rw [hnone]
  | some t =>
      obtain ⟨t', ht', hbecomes⟩ := heach.becomes n t ht
      rw [ht', Option.map_some, Option.map_some, hbecomes.identity_eq]

theorem Registry.Edit.isProper {obtained : String → Nat → Prop} {r after : Registry}
    {tunnels : List Tunnel} (hedit : r.Edit (fun _ => False) obtained after) (hproper : r.IsProper tunnels) :
    after.IsProper tunnels := by
  intro e he
  rcases hedit.mem he with ⟨before, hbefore, hidentity, htunnel⟩ | ⟨hnone, _⟩
  · rw [← hidentity, ← htunnel]
    exact hproper before hbefore
  · cases hnone

namespace Hub

variable {own : String → Option Nat} {number i : Nat} {h next : Hub} {c : Call}

/-! ## Calls that make no requests -/

/-- What is done elsewhere: the tunnels keep their identities and what is registered is so under
these, streams keep their numbers, and the calls that are about tunnels are as they were. -/
theorem IsParted.of_elsewhere (hparted : h.IsParted own)
    (hidentities : next.tunnels.map (·.identity) = h.tunnels.map (·.identity))
    (hproper : next.registry.IsProper h.tunnels)
    (hstreams : h.streams.map (·.tunnel) <+: next.streams.map (·.tunnel))
    (hcalls : ∀ c ∈ next.calls, ∀ number, own c.name = some number → c ∈ h.calls) :
    next.IsParted own where
  distinct := by
    rw [hidentities]
    exact hparted.distinct
  proper := hproper.congr hidentities
  calls c hc number hown :=
    (hparted.calls c (hcalls c hc number hown) number hown).congr hstreams

theorem SameStreams.tunnels_eq (hsame : h.SameStreams next) :
    next.streams.map (·.tunnel) = h.streams.map (·.tunnel) := by
  rw [← List.forall₂_eq_eq_eq, List.forall₂_map_left_iff, List.forall₂_map_right_iff]
  exact hsame.flip.imp fun _ _ hs => hs.tunnel

theorem CallStep.numbering {cause : Option CallAction} (hstep : CallStep h i c cause next)
    (hc : h.calls[i]? = some c) :
    h.streams.map (·.tunnel) <+: next.streams.map (·.tunnel) := by
  rcases hstep.streams hc with hsame | ⟨_, number, ticket, c', hold, t, _, _, _, _, hstreams⟩
  · exact ⟨[], by rw [List.append_nil, hsame.tunnels_eq]⟩
  · rw [hstreams, List.map_append]
    exact List.prefix_append _ _

/-- Requests for a new tunnel register it under its identity, and nothing else is registered. -/
theorem CallStep.isProper {cause : Option CallAction} (hstep : CallStep h i c cause next)
    (hproper : h.registry.IsProper h.tunnels) : next.registry.IsProper h.tunnels := by
  by_cases hrequest : ∃ r, cause = some (.request r)
  · obtain ⟨r, rfl⟩ := hrequest
    cases hstep with
    | request _ _ hstarts =>
        cases hstarts with
        | created _ _ ht => exact hproper.put ht h.now
        | waits _ _ _ _ => exact hproper.touch _ h.now
        | _ => exact hproper
    | _ => exact hproper
  · -- Whatever else a call does enters nothing.
    have hedit : h.registry.Edit (fun _ => False) (fun _ _ => True) next.registry :=
      hstep.edit (fun r _ _ hcause => absurd ⟨r, hcause⟩ hrequest) (fun _ _ _ _ _ => trivial)
        fun _ _ _ _ _ _ _ _ _ _ _ _ _ _ => trivial
    exact hedit.isProper hproper

/-- A call that makes no requests keeps the tunnels apart, whatever it does. -/
theorem IsParted.of_callStep (hparted : h.IsParted own) {cause : Option CallAction}
    (hstep : CallStep h i c cause next) (hc : h.calls[i]? = some c) (hnone : own c.name = none) :
    next.IsParted own := by
  have heach : EachBecomes (fun _ => .all) h.tunnels next.tunnels :=
    hstep.eachBecomes (fun _ _ _ => trivial) (fun _ _ _ => trivial) (fun _ _ => trivial)
      fun _ _ _ => trivial
  refine hparted.of_elsewhere heach.identities_eq (hstep.isProper hparted.proper)
    (hstep.numbering hc) fun other hother number hown => ?_
  obtain ⟨after, hcalls, hname⟩ := hstep.calls
  rw [hcalls] at hother
  rcases List.mem_or_eq_of_mem_set hother with hbefore | rfl
  · exact hbefore
  · rw [hname, hnone] at hown
    cases hown

theorem IsParted.of_withCall (hparted : h.IsParted own) {name : String} (hnone : own name = none) :
    (h.withCall name).2.IsParted own := by
  unfold withCall
  split
  · exact hparted
  · refine hparted.of_elsewhere rfl hparted.proper List.prefix_rfl fun c hc number hown => ?_
    rcases List.mem_append.mp hc with hbefore | hnew
    · exact hbefore
    · rw [List.mem_singleton.mp hnew, hnone] at hown
      cases hown

/-! ## Moves -/

/-- The move opens no tunnel under the identity of another, registers none under another's, and no
client of a request about one tunnel does by it anything about another. -/
def KeepsApart (own : String → Option Nat) (h : Hub) : Move → Prop
  | .act (.open identity _ _ _) => identity ∉ h.tunnels.map (·.identity)
  | .act (.put identity number) =>
    ∀ t, h.tunnels[number]? = some t → t.identity.text = identity
  | .act (.call name action) => ∀ number, own name = some number → action.IsFor number h.tunnels
  | .act _ | .go _ | .takeNews => True

theorem IsParted.opened (hparted : h.IsParted own) {identity : Identity}
    (hnew : identity ∉ h.tunnels.map (·.identity)) (idleTimeout : Option Nat)
    (manner : Sink.Manner) (arrivals : List Arrival) :
    (h.apply (.open identity idleTimeout manner arrivals)).2.IsParted own where
  distinct := by
    simp only [apply, List.map_append, List.map_cons, List.map_nil]
    exact List.nodup_append.mpr ⟨hparted.distinct, List.nodup_singleton _, by
      rintro _ hold _ hlast rfl
      exact hnew (List.mem_singleton.mp hlast ▸ hold)⟩
  proper e he := by
    obtain ⟨t, ht, hidentity⟩ := hparted.proper e he
    refine ⟨t, ?_, hidentity⟩
    exact (List.getElem?_append_left (List.getElem?_eq_some_iff.mp ht).1).trans ht
  calls := hparted.calls

theorem IsParted.withoutNews (hparted : h.IsParted own) : h.withoutNews.IsParted own where
  distinct := hparted.distinct
  proper := hparted.proper
  calls c hc number hown := by
    obtain ⟨before, hbefore, rfl⟩ := List.mem_map.mp hc
    exact { hparted.calls before hbefore number hown with }

/-- What is done from outside, and to no call. -/
theorem IsParted.apply_other (hparted : h.IsParted own) {action : Action}
    (hkeeps : h.KeepsApart own (.act action)) (hother : ∀ name a, action ≠ .call name a) :
    (h.apply action).2.IsParted own := by
  have hcalls : ∀ c ∈ h.calls, ∀ number, own c.name = some number → c ∈ h.calls :=
    fun _ hc _ _ => hc
  cases action with
  | «open» identity idleTimeout manner arrivals =>
      exact hparted.opened hkeeps idleTimeout manner arrivals
  | feed number arrivals =>
      exact hparted.of_changesAt (hparted.changesAt_after? (.feed arrivals) rfl)
  | setManner number manner =>
      exact hparted.of_changesAt (hparted.changesAt_after? (.setManner manner) rfl)
  | describe number shownAs =>
      simp only [apply]
      split <;> exact hparted
  | put identity number =>
      simp only [apply]
      split
      next hlt =>
        have ht := List.getElem?_eq_getElem hlt
        obtain rfl := hkeeps _ ht
        exact hparted.of_elsewhere rfl (hparted.proper.put ht h.now) List.prefix_rfl hcalls
      · exact hparted
  | get identity =>
      exact hparted.of_elsewhere rfl (hparted.proper.touch identity h.now) List.prefix_rfl hcalls
  | remove identity =>
      exact hparted.of_elsewhere rfl (hparted.proper.erase identity) List.prefix_rfl hcalls
  | advance time => exact { hparted with }
  | call name action => exact absurd rfl (hother name action)

/-- Every move that keeps the tunnels apart leaves a hub parted. -/
theorem IsParted.keptApart (hparted : h.IsParted own) {move : Move} (hkeeps : h.KeepsApart own move)
    (hmove : h.after? move = some next) : next.IsParted own := by
  cases move with
  | act action =>
      cases hmove
      by_cases hcall : ∃ name a, action = .call name a
      · obtain ⟨name, a, rfl⟩ := hcall
        cases hown : own name with
        | some number =>
            exact hparted.of_changesAt
              (hparted.changesAt_after? (.client hown (hkeeps number hown)) rfl)
        | none =>
            have hcalled := hparted.of_withCall hown
            rcases h.callStep_apply name a with heq | ⟨c, hc, hstep⟩
            · rw [heq]
              exact hcalled
            · obtain ⟨c', hc', hname⟩ := h.exists_withCall name
              obtain rfl := Option.some.inj (hc.symm.trans hc')
              exact hcalled.of_callStep hstep hc (by rw [hname, hown])
      · exact hparted.apply_other hkeeps fun name a heq => hcall ⟨name, a, heq⟩
  | go agent =>
      cases agent with
      | call i =>
          obtain ⟨c, hc, hstep⟩ := callStep_resumeCall hmove
          cases hown : own c.name with
          | some number =>
              exact hparted.of_changesAt (hparted.changesAt_after? (.call hc hown) hmove)
          | none => exact hparted.of_callStep hstep hc hown
      | stream j =>
          obtain ⟨s, s', t, after, hs, _, _, _⟩ := streamStep_resumeStream hmove
          exact hparted.of_changesAt (hparted.changesAt_after? (.stream hs rfl) hmove)
      | sweeper k =>
          have heach : EachBecomes (fun _ => .all) h.tunnels next.tunnels :=
            eachBecomes_resumeSweeper hmove
          have hproper := (edit_resumeSweeper hmove).isProper hparted.proper
          obtain ⟨_, _, _, _, _, _, rfl⟩ := sweeperStep_resumeSweeper hmove
          exact hparted.of_elsewhere heach.identities_eq hproper List.prefix_rfl fun _ hc _ _ => hc
  | takeNews =>
      cases hmove
      exact hparted.withoutNews

/-- A hub stays parted in every run in which the tunnels are kept apart. -/
theorem Run.isParted {start : Hub} {log : List Record} (hrun : Run start log h)
    (hparted : start.IsParted own) (hkeeps : ∀ r ∈ log, r.before.KeepsApart own r.move) :
    h.IsParted own := by
  induction hrun with
  | nil => exact hparted
  | snoc _ hmove ih =>
      have hbefore := ih fun r hr => hkeeps r (List.mem_append_left _ hr)
      exact hbefore.keptApart (hkeeps _ (List.mem_append_right _ List.mem_cons_self)) hmove

end Hub

end LongPollTunnel

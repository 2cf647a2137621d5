import LongPollTunnel.Proofs.Relays
import LongPollTunnel.Proofs.TakingDown

/-! # Many requests write to one sink

The requests that write to a tunnel have its writer one after the other. Main statement:
along every run in which nobody but requests writes to a tunnel, its sink has taken the
front of each request's body, one after the other; a request is answered with success if
that front is all of its body and was flushed, and otherwise the tunnel is taken down and
its sink takes nothing more.
-/

namespace LongPollTunnel

def Event.head? : Event → Option Head
  | .head told => some told
  | .acquired | .batch _ | .instruction _ | .available _ | .succeeded | .failed _ | .swept _
  | .stopped | .notStarted | .chunk _ | .finished => none

namespace Hub

/-! ## What is seen of a run -/

/-- What the sink of the tunnel with this number has taken. -/
def acceptedAt (h : Hub) (number : Nat) : List UInt8 :=
  h.tunnels[number]?.elim [] (·.sink.accepted)

/-- What the call with this number got to know. -/
def eventsAt (h : Hub) (i : Nat) : List Event :=
  h.calls[i]?.elim [] (·.events)

namespace Record

/-- How far the request of the call with number `i` was that writes to the tunnel with this
number, if it goes on in this move. -/
def relay? (r : Record) (number i : Nat) : Option Handling :=
  match r.move with
  | .go (.call j) => if j = i then (r.before.errand i).relay? number else none
  | .go (.stream _) | .go (.sweeper _) | .act _ | .takeNews => none

/-- The heads of responses that the call with this number is told. -/
def heads (r : Record) (i : Nat) : List Head :=
  ((r.after.eventsAt i).drop (r.before.eventsAt i).length).filterMap Event.head?

/-- What is seen in this move of the request of the call with number `i` that writes to the
tunnel with this number. -/
def ledger (r : Record) (number i : Nat) : Ledger :=
  match r.relay? number i, r.before.tunnels[number]?, r.after.tunnels[number]? with
  | some handling, some t, some t' =>
    { sent := r.before.sentBy r.move i
      given := t'.sink.accepted.drop t.sink.accepted.length
      flushes := Handling.flushesBetween t t'
      answers := r.heads i
      grants := handling.grants ((r.after.errand i).relay? number) }
  | _, _, _ => { sent := r.before.sentBy r.move i }

/-- Whoever is given the writer's seat in this move, to relay a body. -/
def granted (r : Record) (number : Nat) : List Nat :=
  match r.move with
  | .go (.call i) => if (r.ledger number i).grants = 1 then [i] else []
  | .go (.stream _) | .go (.sweeper _) | .act _ | .takeNews => []

end Record

/-- What was seen of the request of the call with number `i` that writes to the tunnel with
this number. -/
def ledger (log : List Record) (number i : Nat) : Ledger :=
  log.foldl (fun l r => l.append (r.ledger number i)) {}

/-- The calls whose requests were given the writer's seat, in that order. -/
def granted (log : List Record) (number : Nat) : List Nat :=
  log.flatMap (·.granted number)

/-- The relay for the call with number `i` has failed. -/
def RelayFailed (log : List Record) (number i : Nat) : Prop :=
  ∃ r ∈ log, r.move = .go (.call i) ∧ r.before.detectsFailure r.move number

variable {h next : Hub} {number i : Nat} {move : Move} {log : List Record} {r : Record}

/-- The last move is entered behind the others. -/
theorem ledger_snoc (log : List Record) (r : Record) (number i : Nat) :
    ledger (log ++ [r]) number i = (ledger log number i).append (r.ledger number i) := by
  unfold ledger
  rw [List.foldl_append]
  rfl

theorem granted_snoc (log : List Record) (r : Record) (number : Nat) :
    granted (log ++ [r]) number = granted log number ++ r.granted number := by
  unfold granted
  rw [List.flatMap_append, List.flatMap_singleton]

/-! ## One move -/

theorem errand_takeProgress {c : Call} {other : Nat} {hold : Bool} {progress : Handling.Progress}
    {after : Handling.Surroundings} (hc : h.calls[i]? = some c) :
    (h.takeProgress i c other hold progress after).errand i =
      ⟨c.hasRequested, after.upload, progress.next?.map (other, ·)⟩ := by
  cases progress with
  | goOn handling => exact (errand_of_set hc rfl).trans rfl
  | answer head =>
      refine (errand_of_set hc rfl).trans ?_
      rw [errand_answered]
      rfl
  | stream ticket =>
      refine (errand_of_set hc rfl).trans ?_
      rw [errand_answered]
      rfl

/-- Only the response to a request that writes tells it a head. -/
theorem heads_takeProgress {c : Call} {other : Nat} {hold : Bool} {progress : Handling.Progress}
    {after : Handling.Surroundings} (hc : h.calls[i]? = some c)
    (hstream : ∀ ticket, progress ≠ .stream ticket) :
    Record.heads ⟨h, move, h.takeProgress i c other hold progress after⟩ i = progress.heads := by
  have hbefore : h.eventsAt i = c.events := by simp [eventsAt, hc]
  have hafter (c' : Call) {next : Hub} (hcalls : next.calls = h.calls.set i c') :
      next.eventsAt i = c'.events := by
    have hc' : next.calls[i]? = some c' := by
      rw [hcalls]
      exact getElem?_set_of_getElem? hc
    simp [eventsAt, hc']
  unfold Record.heads
  rw [hbefore]
  cases progress with
  | goOn handling =>
      rw [hafter { c with upload := after.upload, task := some (.handle other handling hold) } rfl,
        List.drop_length]
      rfl
  | answer head =>
      rw [hafter ({ c with upload := after.upload }.answered head .empty hold) rfl]
      change ((c.events ++ [Event.head head]).drop c.events.length).filterMap _ = _
      rw [List.drop_left]
      rfl
  | stream ticket => exact absurd rfl (hstream ticket)

/-- A move that does not drive the relay on enters what the body brings at most. -/
theorem ledger_of_free (hfree : r.relay? number i = none) :
    r.ledger number i = { sent := r.before.sentBy r.move i } := by
  unfold Record.ledger
  rw [hfree]

theorem relay?_of_free (hfree : move = .go (.call i) → (h.errand i).handling = none) :
    Record.relay? ⟨h, move, next⟩ number i = none := by
  unfold Record.relay?
  split
  next j heq =>
    split
    next hself =>
      subst hself
      simp [Errand.relay?, hfree heq]
    · rfl
  · rfl
  · rfl
  · rfl
  · rfl

theorem relay?_self (h next : Hub) (number i : Nat) :
    Record.relay? ⟨h, .go (.call i), next⟩ number i = (h.errand i).relay? number :=
  if_pos rfl

theorem relay?_of_ne {j : Nat} (hne : j ≠ i) :
    Record.relay? ⟨h, .go (.call j), next⟩ number i = none :=
  if_neg hne

/-- A request that writes goes on with a relay if it goes on at all. -/
theorem grants_relay? (handling : Handling) (e : Errand) {next : Option Handling}
    (hhandling : e.handling = next.map (number, ·)) :
    handling.grants (e.relay? number) = handling.grants next := by
  cases next with
  | none => simp [Errand.relay?, hhandling]
  | some next =>
      cases next <;> cases handling <;>
        simp [Errand.relay?, hhandling, Handling.role, Handling.grants]

section

variable {c : Call} {other : Nat} {handling : Handling} {hold : Bool} {t : Tunnel}
  {progress : Handling.Progress} {after : Handling.Surroundings}

theorem errand_of_task (hc : h.calls[i]? = some c)
    (htask : c.task = some (.handle other handling hold)) :
    h.errand i = ⟨c.hasRequested, c.upload, some (other, handling)⟩ := by
  rw [errand_of_call hc]
  simp [Call.errand, htask, Task.handling?]

theorem relay?_of_task (hc : h.calls[i]? = some c)
    (htask : c.task = some (.handle other handling hold)) (number : Nat) :
    (h.errand i).relay? number =
      if other = number ∧ handling.role = .writer then some handling else none := by
  rw [errand_of_task hc htask]
  rfl

/-- A move of the relay enters what its step does. -/
theorem ledger_of_handle (hc : h.calls[i]? = some c)
    (htask : c.task = some (.handle number handling hold)) (hrole : handling.role = .writer)
    (ht : h.tunnels[number]? = some t)
    (hstep : handling.Step h.registry t c.upload progress after) :
    Record.ledger ⟨h, .go (.call i), h.takeProgress i c number hold progress after⟩ number i =
      handling.entry t progress after.tunnel := by
  have hrelay : Record.relay? ⟨h, .go (.call i), h.takeProgress i c number hold progress after⟩
      number i = some handling := by
    rw [relay?_self, relay?_of_task hc htask, if_pos ⟨rfl, hrole⟩]
  have ht' : (h.takeProgress i c number hold progress after).tunnels[number]? =
      some after.tunnel := by
    rw [tunnels_takeProgress]
    exact getElem?_set_of_getElem? ht
  have hstream (ticket : Nat) : progress ≠ .stream ticket := by
    intro heq
    cases hstep with
    | reads _ => cases hrole
    | fails hfails =>
        rw [Handling.failRelay_eq] at heq
        cases hclosing : (Tunnel.leave _ .writer _).close.1 <;> rw [hclosing] at heq <;> cases heq
    | _ => cases heq
  unfold Record.ledger
  rw [hrelay, ht, ht']
  dsimp only
  rw [heads_takeProgress hc hstream, grants_relay? handling _ (by rw [errand_takeProgress hc])]
  rfl

/-- The step lemma of the ledger, one case per step of a handling. -/
theorem stands_of_handle {failed failed' : Prop} {l : Ledger}
    (hstands : Stands number failed (h.errand i) l) (himp : failed → failed')
    (hc : h.calls[i]? = some c) (htask : c.task = some (.handle other handling hold))
    (ht : h.tunnels[other]? = some t)
    (hstep : handling.Step h.registry t c.upload progress after)
    (hfailed : h.detectsFailure (.go (.call i)) number → failed') :
    Stands number failed' ((h.takeProgress i c other hold progress after).errand i)
      (l.append (Record.ledger
        ⟨h, .go (.call i), h.takeProgress i c other hold progress after⟩ number i)) := by
  have herrand := errand_of_task hc htask
  rw [errand_takeProgress hc]
  replace hstands := hstands.mono himp
  rw [herrand] at hstands
  by_cases hself : other = number ∧ handling.role = .writer
  · obtain ⟨rfl, hrole⟩ := hself
    rw [ledger_of_handle hc htask hrole ht hstep]
    refine hstands.handle (by simp [Errand.relay?, hrole]) hstep ?_
    rintro ticket rest failure used left rfl hfails
    exact hfailed ⟨c, t, ticket, rest, hold, failure, used, left, hc, htask, ht, hfails⟩
  · have hrelay : (h.errand i).relay? number = none := by
      rw [relay?_of_task hc htask, if_neg hself]
    rw [ledger_of_free ((relay?_self _ _ _ _).trans hrelay)]
    rw [herrand] at hrelay
    have hother := hstands.handle_other hrelay rfl hstep
    exact hother.congr (by simp [Ledger.append, sentBy])

end

/-- Every move keeps the ledger of every request in order. -/
theorem stands_after? (hmove : h.after? move = some next)
    (hstands : Stands number (RelayFailed log number i) (h.errand i) (ledger log number i)) :
    Stands number (RelayFailed (log ++ [⟨h, move, next⟩]) number i) (next.errand i)
      (ledger (log ++ [⟨h, move, next⟩]) number i) := by
  have himp (hfailed : RelayFailed log number i) :
      RelayFailed (log ++ [⟨h, move, next⟩]) number i := by
    obtain ⟨r, hr, hdetects⟩ := hfailed
    exact ⟨r, List.mem_append_left _ hr, hdetects⟩
  rw [ledger_snoc]
  cases errandMove_after? hmove i with
  | other hfree hlater =>
      rw [ledger_of_free (relay?_of_free hfree)]
      exact ((hstands.mono himp).later hlater).congr (by simp [Ledger.append])
  | handle hc htask ht hstep =>
      refine stands_of_handle hstands himp hc htask ht hstep fun hdetects => ?_
      exact ⟨_, List.mem_append_right _ (List.mem_singleton_self _), rfl, hdetects⟩

/-! ## The order of the writers -/

theorem grants_of_free (hfree : r.relay? number i = none) : (r.ledger number i).grants = 0 := by
  rw [ledger_of_free hfree]

/-- One move grants the seat once at most. -/
theorem grants_le (r : Record) (number i : Nat) : (r.ledger number i).grants ≤ 1 := by
  unfold Record.ledger
  split
  · dsimp only
    unfold Handling.grants
    split
    · exact Nat.le_refl _
    all_goals exact Nat.zero_le _
  · exact Nat.zero_le _

theorem count_granted (r : Record) (number i : Nat) :
    (r.granted number).count i = (r.ledger number i).grants := by
  obtain ⟨h, move, next⟩ := r
  have hfree (hother : ∀ j, move ≠ .go (.call j)) :
      (Record.ledger ⟨h, move, next⟩ number i).grants = 0 :=
    grants_of_free (relay?_of_free fun hself => absurd hself (hother i))
  match move with
  | .go (.call j) =>
      have hle := grants_le ⟨h, .go (.call j), next⟩ number j
      by_cases hself : j = i
      · subst hself
        simp only [Record.granted]
        split
        next hgrants => rw [hgrants, List.count_singleton_self]
        · rw [List.count_nil]
          omega
      · rw [grants_of_free (relay?_of_ne hself)]
        simp only [Record.granted]
        split
        · exact List.count_singleton.trans (by simp [hself])
        · rfl
  | .go (.stream _) | .go (.sweeper _) | .act _ | .takeNews =>
      rw [hfree (by simp)]
      rfl

/-- Whoever is given the seat was waiting for it and is served. -/
theorem isServing_of_grants {j : Nat} (hmove : h.after? (.go (.call j)) = some next)
    (hgrants : (Record.ledger ⟨h, .go (.call j), next⟩ number j).grants ≠ 0) :
    ∃ c ticket hold t, h.calls[j]? = some c ∧
      c.task = some (.handle number (.awaitWriter ticket) hold) ∧
      h.tunnels[number]? = some t ∧ t.writerSeat.isServing ticket = true := by
  cases errandMove_after? hmove j with
  | other hfree _ => exact absurd (grants_of_free (relay?_of_free hfree)) hgrants
  | @handle c other handling hold t progress after hc htask ht hstep =>
      by_cases hself : other = number ∧ handling.role = .writer
      · obtain ⟨rfl, hrole⟩ := hself
        rw [ledger_of_handle hc htask hrole ht hstep] at hgrants
        cases hstep with
        | writes hserving => exact ⟨c, _, hold, t, hc, htask, ht, hserving⟩
        | reads _ => cases hrole
        | takes _ _ => exact absurd rfl hgrants
        | blocks _ _ => exact absurd rfl hgrants
        | fails _ => exact absurd rfl hgrants
        | finishes _ _ _ => exact absurd rfl hgrants
        | closes _ => exact absurd rfl hgrants
      · refine absurd (grants_of_free ?_) hgrants
        rw [relay?_self, relay?_of_task hc htask, if_neg hself]

/-- A call whose request relays has a task for that. -/
theorem task_of_relay? {handling : Handling} (hrelay : (h.errand i).relay? number = some handling) :
    ∃ c hold, h.calls[i]? = some c ∧ c.task = some (.handle number handling hold) := by
  cases hc : h.calls[i]? with
  | none => simp [errand, hc, Errand.relay?] at hrelay
  | some c =>
      rw [errand_of_call hc] at hrelay
      unfold Errand.relay? at hrelay
      split at hrelay
      next other found hhandling =>
        split at hrelay
        next hself =>
          cases hrelay
          obtain ⟨hold, htask⟩ := task_of_handling hhandling
          rw [hself.1] at htask
          exact ⟨c, hold, rfl, htask⟩
        · cases hrelay
      · cases hrelay

/-- Nobody relays while somebody else is given the seat. -/
theorem not_relaying_of_serving (hseated : h.IsSeated) {j ticket : Nat} {c : Call} {hold : Bool}
    {t : Tunnel} (hne : i ≠ j) (hc : h.calls[j]? = some c)
    (htask : c.task = some (.handle number (.awaitWriter ticket) hold))
    (ht : h.tunnels[number]? = some t) (hserving : t.writerSeat.isServing ticket = true)
    (place : Nat) (rest : Option (List UInt8)) :
    (h.errand i).relay? number ≠ some (.relaying place rest) := by
  intro hrelay
  obtain ⟨c', hold', hc', htask'⟩ := task_of_relay? hrelay
  have hothers := IsSeated.of_call hc hseated
  have hmem : c' ∈ h.calls.eraseIdx j := List.mem_eraseIdx_iff_getElem?.mpr ⟨i, hne, hc'⟩
  have hheld : (⟨.writer, number, place⟩ : Claim) ∈ h.heldBut j := by
    refine List.mem_append_left _ (List.mem_flatMap.mpr ⟨c', hmem, ?_⟩)
    rw [Call.held_of_holding htask' rfl rfl]
    exact List.mem_cons_self
  -- both tickets are served, so they are one, and it has been drawn twice
  have hsame : place = ticket :=
    hothers.ticket_eq_of_isServing (List.mem_append_right _ hheld) ht hserving
  subst hsame
  have hclaim : (⟨.writer, number, place⟩ : Claim) ∈ c.claims := by
    rw [Call.claims_of_task htask rfl]
    exact List.mem_cons_self
  exact List.disjoint_of_nodup_append hothers.nodup hclaim (h.heldBut_subset j hheld)

/-- A body is relayed if it was before, or if the request has just been given the seat. -/
theorem relaying_or_granted (hmove : h.after? move = some next) {ticket : Nat}
    {rest : Option (List UInt8)}
    (hrelay : (next.errand i).relay? number = some (.relaying ticket rest)) :
    (∃ ticket' rest', (h.errand i).relay? number = some (.relaying ticket' rest')) ∨
      (move = .go (.call i) ∧ (Record.ledger ⟨h, move, next⟩ number i).grants = 1) := by
  cases errandMove_after? hmove i with
  | other _ hlater => exact Or.inl ⟨ticket, rest, hlater.relay?_of_relaying hrelay⟩
  | @handle c other handling hold t progress after hc htask ht hstep =>
      by_cases hself : other = number ∧ handling.role = .writer
      · obtain ⟨rfl, hrole⟩ := hself
        have hbefore : (h.errand i).relay? other = some handling := by
          rw [relay?_of_task hc htask, if_pos ⟨rfl, hrole⟩]
        rw [ledger_of_handle hc htask hrole ht hstep]
        rw [errand_takeProgress hc] at hrelay
        cases hstep with
        | reads _ => cases hrole
        | writes _ => exact Or.inr ⟨rfl, rfl⟩
        | closes _ => simp [Errand.relay?, Handling.Progress.next?] at hrelay
        | takes _ _ => exact Or.inl ⟨_, _, hbefore⟩
        | blocks _ _ => exact Or.inl ⟨_, _, hbefore⟩
        | fails _ => exact Or.inl ⟨_, _, hbefore⟩
        | finishes _ _ _ => exact Or.inl ⟨_, _, hbefore⟩
      · have hbefore : (h.errand i).relay? number = none := by
          rw [relay?_of_task hc htask, if_neg hself]
        rw [errand_of_task hc htask] at hbefore
        rw [errand_takeProgress hc, hstep.relay?_eq_none hbefore rfl] at hrelay
        cases hrelay

/-- Whoever relays is the last that was given the seat. -/
def LastRelays (h : Hub) (number : Nat) (granted : List Nat) : Prop :=
  ∀ i ticket rest, (h.errand i).relay? number = some (.relaying ticket rest) →
    granted.getLast? = some i

/-- The one who was granted the seat last is the one who relays. -/
theorem lastRelays_after? (hseated : h.IsSeated) (hmove : h.after? move = some next)
    {granted : List Nat} (hlast : h.LastRelays number granted) :
    next.LastRelays number (granted ++ Record.granted ⟨h, move, next⟩ number) := by
  intro i ticket rest hrelay
  rcases relaying_or_granted hmove hrelay with ⟨ticket', rest', hbefore⟩ | ⟨rfl, hgranted⟩
  · have hi := hlast i ticket' rest' hbefore
    match move with
    | .go (.call j) =>
        unfold Record.granted
        dsimp only
        split
        next hgrants =>
          have hnonzero : (Record.ledger ⟨h, .go (.call j), next⟩ number j).grants ≠ 0 := by omega
          obtain ⟨c, ticket, hold, t, hc, htask, ht, hserving⟩ :=
            isServing_of_grants hmove hnonzero
          -- nobody who relays is passed over
          by_cases hne : i = j
          · rw [hne]
            exact List.getLast?_concat
          · exact absurd hbefore
              (not_relaying_of_serving hseated hne hc htask ht hserving ticket' rest')
        · rw [List.append_nil]
          exact hi
    | .go (.stream _) | .go (.sweeper _) | .act _ | .takeNews =>
        exact (congrArg List.getLast? (List.append_nil granted)).trans hi
  · unfold Record.granted
    dsimp only
    rw [if_pos hgranted]
    exact List.getLast?_concat

/-! ## What the sink has taken -/

theorem acceptedAt_of_tunnel {t : Tunnel} (ht : h.tunnels[number]? = some t) :
    h.acceptedAt number = t.sink.accepted := by
  simp [acceptedAt, ht]

theorem acceptedAt_of_none (hmove : h.after? move = some next) (ht : h.tunnels[number]? = none) :
    h.acceptedAt number = [] ∧ next.acceptedAt number = [] := by
  refine ⟨by simp [acceptedAt, ht], ?_⟩
  cases ht' : next.tunnels[number]? with
  | none => simp [acceptedAt, ht']
  | some t' =>
      obtain ⟨_, _, _, _, _, _, rfl⟩ := opened_after? hmove ht ht'
      exact acceptedAt_of_tunnel ht'

/-- Nothing is given to a sink by a move that does not write to it. -/
theorem acceptedAt_of_not_writesAt (hmove : h.after? move = some next)
    (hwrites : ¬ h.writesAt move number) : next.acceptedAt number = h.acceptedAt number := by
  cases ht : h.tunnels[number]? with
  | none =>
      obtain ⟨hbefore, hafter⟩ := acceptedAt_of_none hmove ht
      rw [hbefore, hafter]
  | some t =>
      obtain ⟨t', ht', hbecomes⟩ := becomes_after? hmove ht
      rw [acceptedAt_of_tunnel ht, acceptedAt_of_tunnel ht']
      exact hbecomes.accepted_eq hwrites

theorem given_of_free (hfree : r.relay? number i = none) : (r.ledger number i).given = [] := by
  rw [ledger_of_free hfree]

/-- What a move in which a relay goes on gives to the sink is the relay's. -/
theorem acceptedAt_of_relay? (hmove : h.after? move = some next) {handling : Handling}
    (hrelay : Record.relay? ⟨h, move, next⟩ number i = some handling) :
    next.acceptedAt number =
      h.acceptedAt number ++ (Record.ledger ⟨h, move, next⟩ number i).given := by
  unfold Record.ledger
  rw [hrelay]
  dsimp only
  cases ht : h.tunnels[number]? with
  | none =>
      obtain ⟨hbefore, hafter⟩ := acceptedAt_of_none hmove ht
      rw [hbefore, hafter]
      rfl
  | some t =>
      obtain ⟨t', ht', hbecomes⟩ := becomes_after? hmove ht
      obtain ⟨taken, htaken⟩ := hbecomes.accepted_le
      rw [acceptedAt_of_tunnel ht, acceptedAt_of_tunnel ht', ht']
      dsimp only
      rw [← htaken, List.drop_left]

/-- Who does not write gives nothing. -/
theorem given_of_not_writesAt (hmove : h.after? move = some next)
    (hwrites : ¬ h.writesAt move number) (i : Nat) :
    (Record.ledger ⟨h, move, next⟩ number i).given = [] := by
  cases hrelay : Record.relay? ⟨h, move, next⟩ number i with
  | none => exact given_of_free hrelay
  | some handling =>
      have haccepted := acceptedAt_of_relay? hmove hrelay
      rw [acceptedAt_of_not_writesAt hmove hwrites] at haccepted
      exact List.self_eq_append_right.mp haccepted

/-- What the requests have given to the sink, in the order in which they were given the
seat. -/
def contributions (log : List Record) (number : Nat) : List UInt8 :=
  (granted log number).flatMap fun i => (ledger log number i).given

theorem given_snoc (log : List Record) (r : Record) (number i : Nat) :
    (ledger (log ++ [r]) number i).given =
      (ledger log number i).given ++ (r.ledger number i).given := by
  rw [ledger_snoc]
  rfl

/-- Only who waits is given the seat. -/
theorem granted_of_relaying {ticket : Nat} {rest : Option (List UInt8)}
    (hrelay : (h.errand i).relay? number = some (.relaying ticket rest)) :
    Record.granted ⟨h, .go (.call i), next⟩ number = [] := by
  have hself : Record.relay? ⟨h, .go (.call i), next⟩ number i = some (.relaying ticket rest) :=
    (relay?_self _ _ _ _).trans hrelay
  refine if_neg ?_
  unfold Record.ledger
  rw [hself]
  split
  next heq _ _ =>
    cases heq
    exact Nat.zero_ne_one
  · exact Nat.zero_ne_one

/-- A relay that goes on adds to the contribution of its request, which is the last. -/
theorem contributions_of_relaying {ticket : Nat} {rest : Option (List UInt8)}
    (hrelay : (h.errand i).relay? number = some (.relaying ticket rest)) {earlier : List Nat}
    (hgranted : granted log number = earlier ++ [i]) (hnew : i ∉ earlier) :
    contributions (log ++ [⟨h, .go (.call i), next⟩]) number =
      contributions log number ++ (Record.ledger ⟨h, .go (.call i), next⟩ number i).given := by
  have hothers : (earlier.flatMap fun j =>
      (ledger (log ++ [⟨h, .go (.call i), next⟩]) number j).given) =
      earlier.flatMap fun j => (ledger log number j).given := by
    refine List.flatMap_congr fun j hj => ?_
    have hne : i ≠ j := by
      rintro rfl
      exact hnew hj
    rw [given_snoc, given_of_free (relay?_of_ne hne), List.append_nil]
  unfold contributions
  rw [granted_snoc, granted_of_relaying hrelay, List.append_nil, hgranted, List.flatMap_append,
    List.flatMap_append, hothers, List.flatMap_singleton, List.flatMap_singleton, given_snoc,
    List.append_assoc]

/-- A move that gives nothing to the sink adds to no contribution, and whoever is given the
seat in it has not contributed yet. -/
theorem contributions_of_not_writesAt (hmove : h.after? move = some next)
    (hwrites : ¬ h.writesAt move number)
    (hfirst : ∀ i ∈ Record.granted ⟨h, move, next⟩ number, (ledger log number i).given = []) :
    contributions (log ++ [⟨h, move, next⟩]) number = contributions log number := by
  have hsame (i : Nat) : (ledger (log ++ [⟨h, move, next⟩]) number i).given =
      (ledger log number i).given := by
    rw [given_snoc, given_of_not_writesAt hmove hwrites i, List.append_nil]
  have hnone : ((Record.granted ⟨h, move, next⟩ number).flatMap fun i =>
      (ledger log number i).given) = [] := List.flatMap_eq_nil_iff.mpr hfirst
  unfold contributions
  rw [granted_snoc, List.flatMap_append]
  simp only [hsame]
  rw [hnone, List.append_nil]

/-! ## Whole runs -/

/-- What holds all along a run in which nobody but requests writes to the tunnel with this
number. -/
structure IsRelayed (h : Hub) (log : List Record) (number : Nat) : Prop where
  stands : ∀ i, Stands number (RelayFailed log number i) (h.errand i) (ledger log number i)
  count : ∀ i, (granted log number).count i = (ledger log number i).grants
  last : h.LastRelays number (granted log number)
  accepted : h.acceptedAt number = contributions log number

theorem isRelayed_empty (number : Nat) : IsRelayed {} [] number where
  stands := fun _ => .unasked
  count := fun _ => rfl
  last := by
    intro i ticket rest hrelay
    cases hrelay
  accepted := rfl

namespace IsRelayed

/-- No request is granted the seat twice. -/
theorem nodup (hrelayed : IsRelayed h log number) : (granted log number).Nodup := by
  rw [List.nodup_iff_count_le_one]
  intro i
  rw [hrelayed.count]
  exact (hrelayed.stands i).grants_le

/-- What the sink takes is what the requests have given, in the order of their turns. -/
theorem accepted_after? (hrelayed : IsRelayed h log number) (hmove : h.after? move = some next)
    (hwrites : ∀ c ∈ h.calls, ¬ c.writesTo number) :
    next.acceptedAt number = contributions (log ++ [⟨h, move, next⟩]) number := by
  by_cases hgives : h.writesAt move number
  · match move with
    | .go (.call i) =>
        obtain ⟨c, hc, hdirect | ⟨ticket, rest, hold, htask⟩⟩ := hgives
        · exact absurd hdirect (hwrites c (List.mem_of_getElem? hc))
        · -- whoever relays was given the seat last, so its contribution is the last one
          have hrelay : (h.errand i).relay? number = some (.relaying ticket rest) := by
            rw [relay?_of_task hc htask, if_pos ⟨rfl, rfl⟩]
          have hself : Record.relay? ⟨h, .go (.call i), next⟩ number i =
              some (.relaying ticket rest) := (relay?_self _ _ _ _).trans hrelay
          obtain ⟨earlier, hgranted⟩ :=
            List.getLast?_eq_some_iff.mp (hrelayed.last i ticket rest hrelay)
          have hnodup := hrelayed.nodup
          rw [hgranted] at hnodup
          have hnew : i ∉ earlier := fun hmem =>
            List.disjoint_of_nodup_append hnodup hmem (List.mem_singleton_self i)
          rw [contributions_of_relaying hrelay hgranted hnew, acceptedAt_of_relay? hmove hself,
            hrelayed.accepted]
    | .go (.stream _) | .go (.sweeper _) | .act _ | .takeNews => cases hgives
  · rw [acceptedAt_of_not_writesAt hmove hgives, hrelayed.accepted]
    refine (contributions_of_not_writesAt hmove hgives fun i hi => ?_).symm
    -- nobody is given the seat twice, so whoever is given it now had not been before
    have hafter := (stands_after? hmove (hrelayed.stands i)).grants_le
    have hgrants := List.one_le_count_iff.mpr hi
    rw [count_granted] at hgrants
    rw [ledger_snoc] at hafter
    refine (hrelayed.stands i).given_eq_nil ?_
    change (ledger log number i).grants + _ ≤ 1 at hafter
    omega

/-- The step lemma. -/
theorem after? (hrelayed : IsRelayed h log number) (hseated : h.IsSeated)
    (hmove : h.after? move = some next) (hwrites : ∀ c ∈ h.calls, ¬ c.writesTo number) :
    IsRelayed next (log ++ [⟨h, move, next⟩]) number where
  stands := fun i => stands_after? hmove (hrelayed.stands i)
  count := by
    intro i
    rw [granted_snoc, List.count_append, ledger_snoc, hrelayed.count, count_granted]
    rfl
  last := by
    rw [granted_snoc]
    exact lastRelays_after? hseated hmove hrelayed.last
  accepted := hrelayed.accepted_after? hmove hwrites

/-- The run lemma, by induction over the run. -/
theorem of_run (hrun : Run {} log h)
    (hwrites : ∀ r ∈ log, ∀ c ∈ r.before.calls, ¬ c.writesTo number) :
    IsRelayed h log number := by
  induction hrun with
  | nil => exact isRelayed_empty number
  | snoc hrun hmove ih =>
      have hbefore := ih fun r hr => hwrites r (List.mem_append_left _ hr)
      have hlast := hwrites _ (List.mem_append_right _ (List.mem_singleton_self _))
      exact hbefore.after? (isSeated_of_reaches hrun.reaches) hmove hlast

end IsRelayed

theorem status_ofFailure {failure : Failure} (hkind : failure.kind = .server) :
    (Head.ofFailure failure).status = 500 := by
  unfold Head.ofFailure Failure.status
  rw [hkind]
  rfl

/-- A closed sink takes nothing more. -/
theorem acceptedAt_of_closed {start : Hub} (hrun : Run start log h)
    (hclosed : start.isClosedAt number = true) :
    h.isClosedAt number = true ∧ h.acceptedAt number = start.acceptedAt number := by
  induction hrun with
  | nil => exact ⟨hclosed, rfl⟩
  | snoc _ hmove ih =>
      obtain ⟨hbefore, haccepted⟩ := ih
      refine ⟨isClosedAt_after? hmove hbefore, ?_⟩
      obtain ⟨t, ht, hshut⟩ := isClosedAt_iff.mp hbefore
      obtain ⟨t', ht', hbecomes⟩ := becomes_after? hmove ht
      rw [← haccepted, acceptedAt_of_tunnel ht, acceptedAt_of_tunnel ht']
      exact hbecomes.accepted_eq_of_closed hshut

/-- A relay that fails has taken its tunnel down. -/
theorem RelayFailed.isDown (hrun : Run {} log h) (hfailed : RelayFailed log number i) :
    ∃ pre r post identity, log = pre ++ r :: post ∧ r.move = .go (.call i) ∧
      r.before.detectsFailure r.move number ∧ r.after.IsDown number identity ∧
      ((∀ later ∈ post, ¬ later.before.registers later.move identity) →
        h.IsDown number identity) := by
  obtain ⟨r, hr, hmove, hdetects⟩ := hfailed
  obtain ⟨pre, post, rfl⟩ := List.append_of_mem hr
  obtain ⟨_, hstep, hpost⟩ := hrun.record
  obtain ⟨t, ht⟩ := exists_tunnel_of_detectsFailure hdetects
  have hdown := isDown_of_detectsFailure hstep hdetects ht
  exact ⟨pre, r, post, _, rfl, hmove, hdetects, hdown, hdown.run hpost⟩

/-- Along every run from an empty hub in which nobody but requests writes to a tunnel: its
sink has taken what each request contributed, one after the other in the order in which they
were given the seat, and each is given it once at most. What a request contributes is the
front of its body. It is answered once: with success exactly if its body has ended whole,
the sink took all of it and the flush succeeded, and otherwise as a failure inside, for which
the tunnel was taken down. Once a failure was found the sink takes nothing more. -/
theorem relays_in_turn (hrun : Run {} log h) (number : Nat)
    (hwrites : ∀ r ∈ log, ∀ c ∈ r.before.calls, ¬ c.writesTo number) :
    h.acceptedAt number =
      ((granted log number).flatMap fun i => (ledger log number i).given) ∧
    (granted log number).Nodup ∧
    (∀ i, (ledger log number i).given <+: BodyPart.bytesOf (ledger log number i).sent) ∧
    (∀ i, ∀ head ∈ (ledger log number i).answers,
      (ledger log number i).answers = [head] ∧
      (head.status = 200 ↔
        (ledger log number i).sent.all BodyPart.isChunk = true ∧
        (h.errand i).upload.isOpen = false ∧
        (ledger log number i).given = BodyPart.bytesOf (ledger log number i).sent ∧
        (ledger log number i).flushes = 1) ∧
      (head.status ≠ 200 → head.status = 500 ∧
        ∃ pre r post identity, log = pre ++ r :: post ∧ r.move = .go (.call i) ∧
          r.before.detectsFailure r.move number ∧ r.after.IsDown number identity ∧
          ((∀ later ∈ post, ¬ later.before.registers later.move identity) →
            h.IsDown number identity))) ∧
    (∀ pre r post, log = pre ++ r :: post → r.before.detectsFailure r.move number →
      h.acceptedAt number = r.after.acceptedAt number) := by
  have hrelayed := IsRelayed.of_run hrun hwrites
  refine ⟨hrelayed.accepted, hrelayed.nodup, fun i => (hrelayed.stands i).given_le, ?_, ?_⟩
  · intro i head hhead
    obtain ⟨honly, hcases⟩ := (hrelayed.stands i).answer_cases hhead
    refine ⟨honly, ?_⟩
    rcases hcases with ⟨rfl, hwhole⟩ | ⟨failure, rfl, hkind, hunflushed, hfailed⟩
    · exact ⟨⟨fun _ => hwhole, fun _ => rfl⟩, fun hne => absurd rfl hne⟩
    · have hstatus := status_ofFailure hkind
      refine ⟨⟨?_, ?_⟩, fun _ => ⟨hstatus, hfailed.isDown hrun⟩⟩
      · intro hsuccess
        rw [hstatus] at hsuccess
        cases hsuccess
      · rintro ⟨_, _, _, hflushed⟩
        rw [hunflushed] at hflushed
        cases hflushed
  · rintro pre r post rfl hdetects
    obtain ⟨_, hmove, hpost⟩ := hrun.record
    obtain ⟨t, ht⟩ := exists_tunnel_of_detectsFailure hdetects
    obtain ⟨t', ht', _, hclosed⟩ := (isDown_of_detectsFailure hmove hdetects ht).closed
    exact (acceptedAt_of_closed hpost (isClosedAt_iff.mpr ⟨t', ht', hclosed⟩)).2

/-- Three requests write to a tunnel. The first is relayed whole, the body of the second
breaks, and the third has been waiting for its turn. -/
def bodiesInTurn : List Move :=
  let write (parts : List BodyPart) : Request :=
    { query := Operation.writePrefix ++ (Identity.random 0).text
      connection := .error .notCreated
      upload := { parts } }
  [.act (.open (Identity.random 0) none { maxWrite := some 2 } []),
    .act (.put (Identity.random 0).text 0),
    .act (.call "first" (.request (write [.chunk (Utf8.ofString "4.na"),
      .chunk (Utf8.ofString "me;")]))),
    .act (.call "second" (.request (write [.chunk (Utf8.ofString "3.a"), .broken .incomplete]))),
    .act (.call "third" (.request (write [.chunk (Utf8.ofString "1.b;")]))),
    .go (.call 0), .go (.call 0), .go (.call 0), .go (.call 0),
    .go (.call 1), .go (.call 1), .go (.call 1),
    .go (.call 2), .go (.call 2)]

theorem relays_in_turn_of_bodies :
    granted (({} : Hub).replay bodiesInTurn).1 0 = [0, 1, 2] ∧
      ([0, 1, 2].map fun i =>
        (ledger (({} : Hub).replay bodiesInTurn).1 0 i).answers.map (·.status)) =
        [[200], [500], [500]] ∧
      (({} : Hub).replay bodiesInTurn).2.acceptedAt 0 =
        ([0, 1, 2].flatMap fun i => (ledger (({} : Hub).replay bodiesInTurn).1 0 i).given) ∧
      (({} : Hub).replay bodiesInTurn).2.acceptedAt 0 = Utf8.ofString "4.name;3.a" ∧
      (ledger (({} : Hub).replay bodiesInTurn).1 0 0).given = Utf8.ofString "4.name;" := by
  have hgranted : granted (({} : Hub).replay bodiesInTurn).1 0 = [0, 1, 2] := by decide
  obtain ⟨haccepted, _, _, hanswers, _⟩ := relays_in_turn (run_replay {} bodiesInTurn) 0 (by decide)
  rw [hgranted] at haccepted
  obtain ⟨_, hsuccess, _⟩ := hanswers 0 .written (by decide)
  exact ⟨hgranted, by decide, haccepted, by decide, (hsuccess.mp rfl).2.2.1.trans (by decide)⟩

end Hub

end LongPollTunnel

import LongPollTunnel.Proofs.Queueing
import LongPollTunnel.Proofs.Sweeping
import Mathlib.Data.List.Sort

/-! # The two seats of a tunnel

The tickets that a seat knows tell who holds it and who is in its queue, and they are the tickets
that the agents of the hub have for it. So a seat is the same as before a move unless a ticket for
it has come or gone. Main statement: along every run a tunnel counts as queued readers those who
wait for its reader's seat, which is as many as are in its queue; whoever waits is behind a holder,
and what is done about one seat leaves the other alone.
-/

namespace LongPollTunnel

theorem mem_elim_iff {α β : Type} {a? : Option α} {f : α → List β} {b : β} :
    b ∈ a?.elim [] f ↔ ∃ a, a? = some a ∧ b ∈ f a := by
  cases a? <;> simp

theorem mem_flatMap_iff_getElem? {α β : Type} {l : List α} {f : α → List β} {b : β} :
    b ∈ l.flatMap f ↔ ∃ i : Nat, b ∈ l[i]?.elim [] f := by
  constructor
  · intro hb
    obtain ⟨a, ha, hb⟩ := List.mem_flatMap.mp hb
    obtain ⟨i, hi⟩ := List.mem_iff_getElem?.mp ha
    exact ⟨i, mem_elim_iff.mpr ⟨a, hi, hb⟩⟩
  · rintro ⟨i, hb⟩
    obtain ⟨a, hi, hb⟩ := mem_elim_iff.mp hb
    exact List.mem_flatMap.mpr ⟨a, List.mem_of_getElem? hi, hb⟩

/-! ## Seats -/

namespace Seat

variable {s after : Seat}

theorem Ordered.head?_tickets (hs : s.Ordered) : s.tickets.head? = s.serving := by
  cases hserving : s.serving with
  | none => simp [tickets, hserving, hs.waiting_eq_nil hserving]
  | some ticket => simp [tickets, hserving]

theorem Ordered.tail_tickets (hs : s.Ordered) : s.tickets.tail = s.waiting := by
  cases hserving : s.serving with
  | none => simp [tickets, hserving, hs.waiting_eq_nil hserving]
  | some ticket => simp [tickets, hserving]

/-- The tickets that a seat knows tell who has it and who is in its queue, in order. -/
theorem Ordered.eq_of_mem_tickets (hs : s.Ordered) (hafter : after.Ordered)
    (hsame : ∀ ticket, ticket ∈ after.tickets ↔ ticket ∈ s.tickets) :
    after.serving = s.serving ∧ after.waiting = s.waiting := by
  have heq : after.tickets = s.tickets :=
    hafter.pairwise_lt.eq_of_mem_iff hs.pairwise_lt hsame
  rw [← hafter.head?_tickets, ← hafter.tail_tickets, heq, hs.head?_tickets, hs.tail_tickets]
  exact ⟨rfl, rfl⟩

end Seat

namespace Tunnel

variable {may : Rights} {t after : Tunnel} {role other : Role}

theorem seat_draw_of_ne (hne : other ≠ role) (t : Tunnel) :
    (t.draw role).2.seat other = t.seat other := by
  rw [seat_snd_draw, seat_setSeat_of_ne _ _ _ hne]

/-- Without the right to draw, nobody gets a ticket for the reader's seat. -/
theorem Becomes.next_reader_eq (hbecomes : Becomes may t after) (hdraws : ¬ may.draws) :
    after.readerSeat.next = t.readerSeat.next := by
  induction hbecomes with
  | refl => rfl
  | draw h => exact absurd h hdraws
  | @leave middle role ticket _ ih =>
      rw [← ih]
      cases role with
      | reader => exact Seat.next_leave _ _
      | writer => rfl
  | flush _ hflush ih =>
      rw [← ih]
      exact congrArg Seat.next ((sameButSink_flush? hflush).seat_eq .reader)
  | shutdown _ hshutdown ih =>
      rw [← ih]
      exact congrArg Seat.next ((sameButSink_shutdown? hshutdown).seat_eq .reader)
  | _ => assumption

/-- Without the right to draw, the only new ticket is that of the close that closes the tunnel. -/
theorem Becomes.tickets_subset_or_closes (hbecomes : Becomes may t after) (hdraws : ¬ may.draws)
    (hafter : (after.seat role).Ordered) :
    (after.seat role).tickets ⊆ (t.seat role).tickets ∨
      (role = .writer ∧ t.isOpen = true ∧ after.isOpen = false) := by
  have hkept (hnext : (after.seat role).next = (t.seat role).next) :
      (after.seat role).tickets ⊆ (t.seat role).tickets := by
    intro ticket hticket
    refine ((hbecomes.later role).old_or_new ticket hticket).resolve_right fun hnew => ?_
    have hlt := hafter.lt_next ticket hticket
    omega
  cases role with
  | reader => exact Or.inl (hkept (hbecomes.next_reader_eq hdraws))
  | writer =>
      rcases hbecomes.next_eq_or_closes hdraws with hnext | ⟨hopen, hclosed, -⟩
      · exact Or.inl (hkept hnext)
      · exact Or.inr ⟨rfl, hopen, hclosed⟩

end Tunnel

namespace Hub

variable {h next : Hub} {i number : Nat} {c after : Call} {x : Claim} {t : Tunnel} {role : Role}
  {move : Move} {log : List Record}

/-! ## Who has which tickets -/

/-- The tickets of one agent. -/
def claimsOf (h : Hub) : Agent → List Claim
  | .call i => h.calls[i]?.elim [] Call.claims
  | .stream j => h.streams[j]?.elim [] Stream.claims
  | .sweeper k => h.sweepers[k]?.elim [] Sweeper.claims

/-- The agent goes on, or its user acts through it. -/
def hasTurn (h : Hub) (move : Move) : Agent → Prop
  | .call i => h.turnsTo move i
  | .stream j => move = .go (.stream j)
  | .sweeper k => move = .go (.sweeper k)

theorem mem_claims_iff_agent : x ∈ h.claims ↔ ∃ agent, x ∈ h.claimsOf agent := by
  simp only [claims, List.mem_append, mem_flatMap_iff_getElem?]
  constructor
  · rintro (⟨i, hi⟩ | ⟨j, hj⟩ | ⟨k, hk⟩)
    · exact ⟨.call i, hi⟩
    · exact ⟨.stream j, hj⟩
    · exact ⟨.sweeper k, hk⟩
  · rintro ⟨agent, hx⟩
    cases agent with
    | call i => exact Or.inl ⟨i, hx⟩
    | stream j => exact Or.inr (Or.inl ⟨j, hx⟩)
    | sweeper k => exact Or.inr (Or.inr ⟨k, hx⟩)

/-- Who has not its turn keeps its tickets. -/
theorem mem_claimsOf_of_others {agent : Agent} (hmove : h.after? move = some next)
    (hother : ¬ h.hasTurn move agent) (hx : x ∈ h.claimsOf agent) : x ∈ next.claimsOf agent := by
  cases agent with
  | call i =>
      obtain ⟨c, hc, hclaim⟩ := mem_elim_iff.mp hx
      obtain ⟨events, hnext⟩ := call_of_others hmove hother hc
      exact mem_elim_iff.mpr ⟨_, hnext, hclaim⟩
  | stream j =>
      obtain ⟨s, hs, hclaim⟩ := mem_elim_iff.mp hx
      obtain ⟨s', hs', hsame⟩ := stream_of_others hmove hother hs
      refine mem_elim_iff.mpr ⟨s', hs', ?_⟩
      unfold Stream.claims at hclaim ⊢
      rw [hsame.phase, hsame.tunnel, hsame.ticket]
      exact hclaim
  | sweeper k =>
      obtain ⟨w, hw, hclaim⟩ := mem_elim_iff.mp hx
      obtain ⟨_, hnext, _, -, rfl⟩ := sweeper_of_others hmove hother hw
      exact mem_elim_iff.mpr ⟨_, hnext, hclaim⟩

/-! ## One seat and the other -/

/-- What changes one seat of a tunnel: somebody comes to this seat, somebody whose turn it is gives
up a ticket for this seat or, if it is the writer's, the tunnel is closed. -/
inductive Stirs (h : Hub) (move : Move) (next : Hub) (role : Role) (number : Nat) : Prop where
  | comes (hcomes : h.comesTo? move = some (role, number))
  | goes {agent : Agent} {ticket : Nat} (hturn : h.hasTurn move agent)
      (hclaim : ⟨role, number, ticket⟩ ∈ h.claimsOf agent)
      (hgone : ⟨role, number, ticket⟩ ∉ next.claims)
  | closes (hrole : role = .writer) (hopen : h.isOpenAt number = true)
      (hclosed : next.isClosedAt number = true)

theorem seat_of_seeks {after : Tunnel} (hmove : h.after? move = some next)
    (hseeks : move.seeksSeat = true) (ht : h.tunnels[number]? = some t)
    (hafter : next.tunnels[number]? = some after) :
    h.comesTo? move = some (role, number) ∨ after.seat role = t.seat role := by
  match move with
  | .go _ | .takeNews => cases hseeks
  | .act (.open _ _ _ _) | .act (.feed _ _) | .act (.setManner _ _) | .act (.describe _ _)
  | .act (.put _ _) | .act (.get _) | .act (.remove _) | .act (.advance _) => cases hseeks
  | .act (.call name action) =>
      cases hmove
      rcases tunnels_of_seeks h name hseeks with
        ⟨-, hsame⟩ | ⟨role', number', t', hcomes, ht', htunnels⟩
      · rw [hsame, ht] at hafter
        cases hafter
        exact Or.inr rfl
      · rw [htunnels] at hafter
        by_cases hnumber : number' = number
        · subst hnumber
          rw [getElem?_set_of_getElem? ht'] at hafter
          cases ht.symm.trans ht'
          cases hafter
          by_cases hrole : role = role'
          · exact Or.inl (hrole ▸ hcomes)
          · exact Or.inr (Tunnel.seat_draw_of_ne hrole t)
        · rw [List.getElem?_set_ne hnumber, ht] at hafter
          cases hafter
          exact Or.inr rfl

/-- A seat of a tunnel keeps its holder and its queue unless something is done about it. -/
theorem seat_eq_or_stirs {after : Tunnel} (hseated : h.IsSeated) (hnext : next.IsSeated)
    (hmove : h.after? move = some next) (ht : h.tunnels[number]? = some t)
    (hafter : next.tunnels[number]? = some after) (role : Role) :
    ((after.seat role).serving = (t.seat role).serving ∧
      (after.seat role).waiting = (t.seat role).waiting) ∨ h.Stirs move next role number := by
  have hordered := hseated.ordered number t ht role
  have hordered' := hnext.ordered number after hafter role
  by_cases hstirs : h.Stirs move next role number
  · exact Or.inr hstirs
  refine Or.inl ?_
  -- with no cause no ticket is new and none is gone, and the tickets tell the seat
  have hnew : (after.seat role).tickets ⊆ (t.seat role).tickets := by
    by_cases hseeks : move.seeksSeat = true
    · rcases seat_of_seeks hmove hseeks ht hafter with hcomes | hsame
      · exact absurd (.comes hcomes) hstirs
      · rw [hsame]
        exact List.Subset.refl _
    · obtain ⟨found, hfound, hbecomes⟩ := becomes_after? hmove ht
      cases hafter.symm.trans hfound
      rcases hbecomes.tickets_subset_or_closes hseeks hordered' with
        hsubset | ⟨hrole, hopen, hclosed⟩
      · exact hsubset
      · exact absurd (.closes hrole (isOpenAt_iff.mpr ⟨t, ht, hopen⟩)
          (isClosedAt_iff.mpr ⟨after, hafter, hclosed⟩)) hstirs
  refine hordered.eq_of_mem_tickets hordered' fun ticket => ⟨fun hticket => hnew hticket, ?_⟩
  intro hticket
  have hclaim := (mem_claims_iff_tickets hseated ht).mpr hticket
  obtain ⟨agent, hagent⟩ := mem_claims_iff_agent.mp hclaim
  rw [← mem_claims_iff_tickets hnext hafter]
  by_contra hgone
  by_cases hturn : h.hasTurn move agent
  · exact hstirs (.goes hturn hagent hgone)
  · exact hgone (mem_claims_iff_agent.mpr ⟨agent, mem_claimsOf_of_others hmove hturn hagent⟩)

/-! ## Along every run -/

/-- What the seats of a tunnel tell of who waits and who holds. -/
structure KeepsQueues (h : Hub) (number : Nat) (t : Tunnel) : Prop where
  queuedReaders : t.queuedReaders = h.awaiting .reader number
  queueLength : t.queuedReaders = t.readerSeat.waiting.length
  hasQueuedReader : t.hasQueuedReader = true ↔ ∃ c ∈ h.calls, c.awaits .reader number = true
  behind : ∀ c ∈ h.calls, ∀ x, c.awaited? = some x → x.tunnel = number →
    ∃ y ∈ h.held, y.role = x.role ∧ y.tunnel = number ∧ y.ticket < x.ticket
  isHeld : ∀ role, (t.seat role).isHeld = true ↔ ∃ y ∈ h.held, y.role = role ∧ y.tunnel = number
  isInUse : t.isInUse = true ↔ ∃ y ∈ h.held, y.tunnel = number
  closing : ∀ c ∈ h.calls, ∀ ticket, c.task = some (.close ⟨number, ticket⟩) →
    (t.seat .writer).isServing ticket = true

/-- As many readers count as queued as are in the queue, unless the one at its head is about to go
on. -/
theorem queuedReaders_eq_length (hseated : h.IsSeated) (hcounts : h.CountsQueued)
    (ht : h.tunnels[number]? = some t) (hbehind : h.AllBehind .reader number t) :
    t.queuedReaders = t.readerSeat.waiting.length :=
  (hcounts number t ht).trans (length_waiting hseated ht hbehind).symm

theorem isHeld_iff_mem_held (hseated : h.IsSeated) (hsettled : h.IsSettled)
    (ht : h.tunnels[number]? = some t) (role : Role) :
    (t.seat role).isHeld = true ↔ ∃ y ∈ h.held, y.role = role ∧ y.tunnel = number := by
  constructor
  · intro hheld
    obtain ⟨ticket, hserving⟩ := Option.isSome_iff_exists.mp hheld
    exact ⟨_, (isServing_iff_mem_held hseated ht (hsettled.allBehind ht _)).mp (Seat.isServing_iff.mpr hserving),
      rfl, rfl⟩
  · rintro ⟨⟨_, _, ticket⟩, hy, rfl, rfl⟩
    have hserving := (isServing_iff_mem_held hseated ht (hsettled.allBehind ht _)).mpr hy
    simp [Seat.isHeld, Seat.isServing_iff.mp hserving]

/-- Whoever waits is behind a holder. -/
theorem exists_holder (hseated : h.IsSeated) (hsettled : h.IsSettled) (hc : c ∈ h.calls)
    (hx : c.awaited? = some x) :
    ∃ y ∈ h.held, y.role = x.role ∧ y.tunnel = x.tunnel ∧ y.ticket < x.ticket := by
  have hclaim := mem_claims_iff.mpr (Or.inl ⟨c, hc, hx⟩)
  obtain ⟨t, ht, -⟩ := hseated.exists_tunnel hclaim
  have hwaiting := (mem_waiting_iff hseated ht (hsettled.allBehind ht _)).mpr ⟨c, hc, hx⟩
  have hordered := hseated.ordered x.tunnel t ht x.role
  cases hserving : (t.seat x.role).serving with
  | none =>
      rw [hordered.waiting_eq_nil hserving] at hwaiting
      cases hwaiting
  | some ticket =>
      have hserved := Seat.isServing_iff.mpr hserving
      have hheld := (isServing_iff_mem_held hseated ht (hsettled.allBehind ht _)).mp hserved
      refine ⟨_, hheld, rfl, rfl, ?_⟩
      -- tickets ascend from the one that is served
      have hpairwise := hordered.pairwise_lt
      rw [Seat.tickets, hserving] at hpairwise
      exact (List.pairwise_cons.mp hpairwise).1 _ hwaiting

theorem keepsQueues_of_settled (hseated : h.IsSeated) (hcounts : h.CountsQueued)
    (hsettled : h.IsSettled) (ht : h.tunnels[number]? = some t) : h.KeepsQueues number t where
  queuedReaders := hcounts number t ht
  queueLength := queuedReaders_eq_length hseated hcounts ht (hsettled.allBehind ht .reader)
  hasQueuedReader := by
    rw [Tunnel.hasQueuedReader, decide_eq_true_eq, hcounts number t ht, awaiting,
      List.countP_pos_iff]
  behind := by
    rintro c hc x hx rfl
    exact exists_holder hseated hsettled hc hx
  isHeld := isHeld_iff_mem_held hseated hsettled ht
  isInUse := by
    simp only [Tunnel.isInUse_iff, isHeld_iff_mem_held hseated hsettled ht]
    constructor
    · rintro ⟨_, y, hy, -, htunnel⟩
      exact ⟨y, hy, htunnel⟩
    · rintro ⟨y, hy, htunnel⟩
      exact ⟨y.role, y, hy, rfl, htunnel⟩
  closing := by
    intro c hc ticket htask
    refine (isServing_iff_mem_held hseated ht (hsettled.allBehind ht _)).mpr (List.mem_append_left _ ?_)
    refine List.mem_flatMap.mpr ⟨c, hc, List.mem_append_left _ ?_⟩
    simp [htask, Task.isHolding, Call.taskClaim?, Task.claim?, Hold.claim]

/-- In whatever order callers come, give up, are given a seat, give it back and close: a counter
that is raised when somebody comes to a seat and lowered when somebody goes from its queue is at any
time the number of those who wait for it, and so is the count of queued readers that a tunnel keeps.
This is the length of the queue while somebody has the reader's seat and when nobody can go on. Then
also whoever waits is behind a holder, and a tunnel is in use exactly if somebody holds a seat of
it. No move changes the holder or the queue of one seat unless somebody comes to this seat or gives
up a ticket for it, or closes the tunnel, if it is the writer's. -/
theorem queues_are_who_waits (hrun : Run {} log h) :
    (∀ role number, counter log role number = h.awaiting role number) ∧
    (∀ number t, h.tunnels[number]? = some t →
      t.queuedReaders = h.awaiting .reader number ∧
      ((∃ y ∈ h.held, y.role = .reader ∧ y.tunnel = number) →
        t.queuedReaders = t.readerSeat.waiting.length)) ∧
    (h.IsSettled → ∀ number t, h.tunnels[number]? = some t → h.KeepsQueues number t) ∧
    (∀ r ∈ log, ∀ number t after, r.before.tunnels[number]? = some t →
      r.after.tunnels[number]? = some after → ∀ role,
        ((after.seat role).serving = (t.seat role).serving ∧
          (after.seat role).waiting = (t.seat role).waiting) ∨
        r.before.Stirs r.move r.after role number) := by
  have hseated := isSeated_of_reaches hrun.reaches
  have hcounts := countsQueued_of_run hrun
  refine ⟨fun role number => counter_of_run hrun role number, ?_, fun hsettled number t ht =>
    keepsQueues_of_settled hseated hcounts hsettled ht, ?_⟩
  · intro number t ht
    refine ⟨hcounts number t ht, ?_⟩
    rintro ⟨y, hy, hrole, htunnel⟩
    exact queuedReaders_eq_length hseated hcounts ht
      (allBehind_of_mem_held hseated ht hy hrole htunnel)
  intro r hr number t after ht hafter role
  obtain ⟨pre, post, rfl⟩ := List.append_of_mem hr
  obtain ⟨hbefore, hmove, -⟩ := hrun.record
  exact seat_eq_or_stirs (isSeated_of_reaches hbefore.reaches)
    (isSeated_of_reaches (hbefore.snoc hmove).reaches) hmove ht hafter role

/-- One call has the reader's seat, and of two that wait for it the first gives up. Another closes
the tunnel and holds the writer's seat as long as the sink makes it wait, with one more behind. -/
def queueing : List Move :=
  [.act (.open (Identity.random 0) none { shutdownBlocks := true } []),
    .act (.call "reading" (.acquire 0 .reader)), .go (.call 0),
    .act (.call "second" (.acquire 0 .reader)), .act (.call "third" (.acquire 0 .reader)),
    .act (.call "second" .abort), .act (.call "closing" (.close 0)),
    .act (.call "writing" (.acquire 0 .writer))]

/-- Of the three that came to the reader's seat one has it, one has given up and one still waits.
The one that comes to the writer's seat changes nothing at the reader's. -/
theorem queues_are_who_waits_while_closing :
    (({} : Hub).replay queueing).1.length = queueing.length ∧
    (({} : Hub).replay queueing).1.countP (·.comes .reader 0) = 3 ∧
    counter (({} : Hub).replay queueing).1 .reader 0 = 1 ∧
    ∃ t, (({} : Hub).replay queueing).2.tunnels[0]? = some t ∧
      (({} : Hub).replay queueing).2.KeepsQueues 0 t ∧ t.queuedReaders = 1 ∧
      ∃ r ∈ (({} : Hub).replay queueing).1, ∃ before, r.before.tunnels[0]? = some before ∧
        r.move = .act (.call "writing" (.acquire 0 .writer)) ∧
        (t.seat .reader).serving = (before.seat .reader).serving ∧
        (t.seat .reader).waiting = (before.seat .reader).waiting := by
  obtain ⟨hcount, -, hkeeps, hapart⟩ := queues_are_who_waits (run_replay {} queueing)
  have htunnel := hkeeps (by decide) 0 _ rfl
  have hwaiting : counter (({} : Hub).replay queueing).1 .reader 0 = 1 := by
    rw [hcount]
    decide
  have hlast := List.getLast_mem (l := (({} : Hub).replay queueing).1) (by decide)
  have hsame := (hapart _ hlast 0 _ _ rfl rfl .reader).resolve_right (by
    rintro (hcomes | @⟨agent, ticket, hturn, hclaim, hgone⟩ | ⟨hrole, -, -⟩)
    · cases hcomes
    · cases agent with
      | call i =>
          cases hturn
          cases hclaim
      | stream j | sweeper k => cases hturn
    · cases hrole)
  exact ⟨by decide, by decide, hwaiting, _, rfl, htunnel, htunnel.queuedReaders.trans (by decide),
    _, hlast, _, rfl, rfl, hsame⟩

end Hub

end LongPollTunnel

import LongPollTunnel.Proofs.Streaming

/-! # Many responses carry one source

The streams of a tunnel have its reader one after the other, in the order of their tickets.
Main statement: along every run in which nobody but streams reads from a tunnel, what its
responses carry, one after the other, is what the reader has handed out, and this is the
front of what the source has brought, cut at an instruction boundary.
-/

namespace LongPollTunnel

open Framing

namespace Stream

/-- The stream has ended, and the later one got the seat after it. -/
def GivesWayTo (s later : Stream) : Prop :=
  s.phase = .ended ∧ s.ticket < later.ticket

/-- The streams have a seat one after the other: only the last may still have it, and
whoever waits for it or will wait comes after those that have ended. -/
structure InTurn (streams : List Stream) (seat : Seat) : Prop where
  pairwise : streams.Pairwise GivesWayTo
  past : ∀ s ∈ streams, s.phase = .ended →
    ∀ ticket, ticket ∈ seat.tickets ∨ seat.next ≤ ticket → s.ticket < ticket

theorem mem_claims_of_goesOn (s : Stream) (hphase : s.phase ≠ .ended) :
    ⟨.reader, s.tunnel, s.ticket⟩ ∈ s.claims := by
  unfold claims
  split
  next hended => exact absurd hended hphase
  · exact List.mem_cons_self
  · exact List.mem_cons_self
  · exact List.mem_cons_self

theorem inTurn_nil (seat : Seat) : InTurn [] seat :=
  ⟨.nil, fun _ hs => absurd hs List.not_mem_nil⟩

variable {streams streams' : List Stream} {seat after : Seat} {s s' : Stream}

theorem InTurn.later (hturn : InTurn streams seat) (hlater : seat.Later after) :
    InTurn streams after where
  pairwise := hturn.pairwise
  past := by
    intro s hs hended ticket hticket
    refine hturn.past s hs hended ticket ?_
    rcases hticket with hthere | hnew
    · exact hlater.old_or_new ticket hthere
    · exact Or.inr (Nat.le_trans hlater.next_le hnew)

theorem exists_of_mem_forall₂ {α β : Type} {R : α → β → Prop} {l : List α} {l' : List β} {b : β}
    (hrel : List.Forall₂ R l l') (hb : b ∈ l') : ∃ a ∈ l, R a b := by
  induction hrel with
  | nil => cases hb
  | @cons a b' l l' hab _ ih =>
      rcases List.mem_cons.mp hb with rfl | htail
      · exact ⟨a, List.mem_cons_self, hab⟩
      · obtain ⟨a', ha', hrel'⟩ := ih htail
        exact ⟨a', List.mem_cons_of_mem _ ha', hrel'⟩

theorem InTurn.congr (hturn : InTurn streams seat)
    (hsame : List.Forall₂ SameButClient streams streams') : InTurn streams' seat where
  pairwise := by
    have hpairwise := hturn.pairwise
    clear hturn
    induction hsame with
    | nil => exact .nil
    | cons hhead htail ih =>
        obtain ⟨hfirst, hrest⟩ := List.pairwise_cons.mp hpairwise
        refine List.pairwise_cons.mpr ⟨?_, ih hrest⟩
        intro later hlater
        obtain ⟨before, hbefore, hlike⟩ := exists_of_mem_forall₂ htail hlater
        obtain ⟨hended, hless⟩ := hfirst before hbefore
        refine ⟨hhead.phase.trans hended, ?_⟩
        rw [hhead.ticket, hlike.ticket]
        exact hless
  past := by
    intro later hlater hended ticket hticket
    obtain ⟨before, hbefore, hlike⟩ := exists_of_mem_forall₂ hsame hlater
    rw [hlike.ticket]
    exact hturn.past before hbefore (hlike.phase.symm.trans hended) ticket hticket

/-- Whoever gets the seat comes after all those that have had it. -/
theorem InTurn.start (hturn : InTurn streams seat) (hended : ∀ s ∈ streams, s.phase = .ended)
    (hserving : seat.isServing s.ticket = true) (hphase : s.phase ≠ .ended) :
    InTurn (streams ++ [s]) seat where
  pairwise := by
    refine List.pairwise_append.mpr ⟨hturn.pairwise, List.pairwise_singleton _ _, ?_⟩
    intro before hbefore later hlater
    rw [List.mem_singleton.mp hlater]
    refine ⟨hended before hbefore, hturn.past before hbefore (hended before hbefore) _ (Or.inl ?_)⟩
    rw [Seat.isServing_iff] at hserving
    simp [Seat.tickets, hserving]
  past := by
    intro before hbefore hphase' ticket hticket
    rcases List.mem_append.mp hbefore with hold | hnew
    · exact hturn.past before hold hphase' ticket hticket
    · rw [List.mem_singleton.mp hnew] at hphase'
      exact absurd hphase' hphase

/-- The tickets behind the one that is served are higher. -/
theorem lt_of_leave {ticket other : Nat} (hordered : seat.Ordered)
    (hserving : seat.isServing ticket = true) (hother : other ∈ (seat.leave ticket).tickets) :
    ticket < other := by
  have hpairwise := hordered.pairwise_lt
  rw [Seat.tickets_leave] at hother
  rw [Seat.isServing_iff] at hserving
  simp only [Seat.tickets, hserving, Option.toList_some, List.singleton_append] at hpairwise hother
  rw [List.erase_cons_head] at hother
  exact (List.pairwise_cons.mp hpairwise).1 other hother

/-- The stream that has the seat goes on, and gives the seat back if that ends it. -/
theorem InTurn.step (hturn : InTurn (streams ++ [s]) seat) (hordered : seat.Ordered)
    (hserving : seat.isServing s.ticket = true) (hticket : s'.ticket = s.ticket)
    (hafter : after = if s'.phase = .ended then seat.leave s.ticket else seat) :
    InTurn (streams ++ [s']) after where
  pairwise := by
    obtain ⟨hbefore, _, hlast⟩ := List.pairwise_append.mp hturn.pairwise
    refine List.pairwise_append.mpr ⟨hbefore, List.pairwise_singleton _ _, ?_⟩
    intro before hmem later hlater
    obtain ⟨hended, hless⟩ := hlast before hmem s (List.mem_singleton_self s)
    rw [List.mem_singleton.mp hlater]
    refine ⟨hended, ?_⟩
    rw [hticket]
    exact hless
  past := by
    have hlater : seat.Later after := by
      rw [hafter]
      split
      · exact Seat.later_leave seat s.ticket
      · exact Seat.later_refl seat
    intro before hbefore hended ticket hcomes
    rcases List.mem_append.mp hbefore with hold | hnew
    · exact (hturn.later hlater).past before (List.mem_append_left _ hold) hended ticket hcomes
    · -- who waited for the seat drew later, and so does whoever will
      rw [List.mem_singleton.mp hnew] at hended ⊢
      rw [if_pos hended] at hafter
      rw [hticket]
      subst hafter
      rcases hcomes with hthere | hnext
      · exact lt_of_leave hordered hserving hthere
      · rw [Seat.next_leave] at hnext
        have hin : s.ticket ∈ seat.tickets := by
          rw [Seat.isServing_iff] at hserving
          simp [Seat.tickets, hserving]
        exact Nat.lt_of_lt_of_le (hordered.lt_next s.ticket hin) hnext

end Stream

namespace Hub

/-! ## What the source has brought -/

namespace Record

/-- What the reader of the tunnel with this number handed out to a stream. -/
def handed (r : Record) (number : Nat) : List UInt8 :=
  match r.move with
  | .go (.stream j) =>
    match r.before.streams[j]?, r.before.tunnels[number]? with
    | some s, some t => if s.tunnel = number then s.handedAt r.before.clock t else []
    | _, _ => []
  | .go (.call _) | .go (.sweeper _) | .act _ | .takeNews => []

/-- What was supplied to the source of the tunnel with this number. -/
def supplied (r : Record) (number : Nat) : List UInt8 :=
  match r.move with
  | .act (.open _ _ _ arrivals) =>
    if r.before.tunnels.length = number then arrivals.flatMap Arrival.bytes else []
  | .act (.feed other arrivals) =>
    if other = number ∧ number < r.before.tunnels.length then arrivals.flatMap Arrival.bytes else []
  | .act _ | .go _ | .takeNews => []

end Record

variable {h next : Hub} {number : Nat} {move : Move} {handed supplied : List UInt8}

/-- Only feeding a source supplies anything. -/
theorem supplied_of_not_feeds {t : Tunnel} (ht : h.tunnels[number]? = some t)
    (hfeeds : ¬ (h.rights move number).feeds) : Record.supplied ⟨h, move, next⟩ number = [] := by
  have hlt := (List.getElem?_eq_some_iff.mp ht).1
  unfold Record.supplied
  split
  next identity idleTimeout manner arrivals _ => exact if_neg (Nat.ne_of_gt hlt)
  next other arrivals heq =>
    refine if_neg ?_
    rintro ⟨rfl, _⟩
    exact hfeeds ⟨arrivals, heq⟩
  · rfl
  · rfl
  · rfl

/-- What was handed out, followed by what the reader has, is what was supplied. -/
structure IsSourced (h : Hub) (number : Nat) (handed supplied : List UInt8) : Prop where
  sound : ∀ t, h.tunnels[number]? = some t → t.reader.Sound
  conserved : ∀ t, h.tunnels[number]? = some t → handed ++ t.reader.unread = supplied
  absent : h.tunnels[number]? = none → handed = [] ∧ supplied = []

theorem isSourced_of_opened (hsourced : h.IsSourced number handed supplied)
    (hmove : h.after? move = some next) (hnone : h.tunnels[number]? = none) :
    next.IsSourced number handed (supplied ++ Record.supplied ⟨h, move, next⟩ number) := by
  obtain ⟨rfl, rfl⟩ := hsourced.absent hnone
  cases hnext : next.tunnels[number]? with
  | none =>
      refine ⟨by simp [hnext], by simp [hnext], fun _ => ⟨rfl, ?_⟩⟩
      have hge := List.getElem?_eq_none_iff.mp hnone
      unfold Record.supplied
      split
      next identity idleTimeout manner arrivals heq =>
        cases heq
        cases hmove
        refine if_neg ?_
        rintro rfl
        change (h.tunnels ++ [_])[h.tunnels.length]? = none at hnext
        rw [List.getElem?_concat_length] at hnext
        cases hnext
      next other arrivals heq => exact if_neg fun hfed => Nat.not_lt.mpr hge hfed.2
      · rfl
      · rfl
      · rfl
  | some t =>
      obtain ⟨identity, idleTimeout, manner, arrivals, hlength, rfl, rfl⟩ :=
        opened_after? hmove hnone hnext
      have hfresh : ({ idleTimeout } : Reader).Sound := Reader.sound_of_complete_eq_zero rfl
      refine ⟨?_, ?_, by simp [hnext]⟩
      · intro t ht
        rw [hnext] at ht
        cases ht
        exact hfresh.feed arrivals
      · intro t ht
        rw [hnext] at ht
        cases ht
        simp only [Record.supplied, hlength, if_true, List.nil_append, Reader.unread_feed]
        rfl

/-- Whatever does not read from a tunnel leaves its reader with all that was supplied. -/
theorem IsSourced.after? (hsourced : h.IsSourced number handed supplied)
    (hmove : h.after? move = some next) (hreads : ¬ h.readsAt move number) :
    next.IsSourced number handed (supplied ++ Record.supplied ⟨h, move, next⟩ number) := by
  cases ht : h.tunnels[number]? with
  | none => exact isSourced_of_opened hsourced hmove ht
  | some t =>
      obtain ⟨t', ht', hbecomes⟩ := becomes_after? hmove ht
      refine ⟨?_, ?_, by simp [ht']⟩
      · intro found hfound
        rw [ht'] at hfound
        cases hfound
        exact hbecomes.sound (hsourced.sound t ht)
      · intro found hfound
        rw [ht'] at hfound
        cases hfound
        -- once a tunnel is open, feeding is all that supplies its source
        by_cases hfeeds : (h.rights move number).feeds
        · obtain ⟨arrivals, rfl⟩ := hfeeds
          cases hmove
          change (h.tunnels.modify number _)[number]? = some t' at ht'
          rw [modify_eq_set_of_getElem? _ ht, getElem?_set_of_getElem? ht] at ht'
          cases ht'
          have hlt := (List.getElem?_eq_some_iff.mp ht).1
          simp [Record.supplied, hlt, ← hsourced.conserved t ht]
        · rw [supplied_of_not_feeds ht hfeeds, List.append_nil,
            hbecomes.unread_eq hreads hfeeds]
          exact hsourced.conserved t ht

/-- What a stream of the tunnel is handed out comes from its reader. -/
theorem IsSourced.step {j : Nat} {s s' : Stream} {t : Tunnel} {after : Stream.Surroundings}
    (hsourced : h.IsSourced s.tunnel handed supplied) (ht : h.tunnels[s.tunnel]? = some t)
    (hstep : s.Step h.clock h.registry t after s')
    (hnext : next.tunnels = h.tunnels.set s.tunnel after.tunnel) :
    next.IsSourced s.tunnel (handed ++ s.handedAt h.clock t)
      (supplied ++ Record.supplied ⟨h, .go (.stream j), next⟩ s.tunnel) := by
  have hthere : next.tunnels[s.tunnel]? = some after.tunnel := by
    rw [hnext]
    exact getElem?_set_of_getElem? ht
  refine ⟨?_, ?_, by simp [hthere]⟩
  · intro found hfound
    rw [hthere] at hfound
    cases hfound
    exact hstep.sound (hsourced.sound t ht)
  · intro found hfound
    rw [hthere] at hfound
    cases hfound
    rw [List.append_assoc, hstep.unread]
    simp [Record.supplied, hsourced.conserved t ht]

/-! ## The streams of a tunnel -/

/-- The streams of the tunnel with this number, in the order in which they were given the
reader's seat. -/
def streamsOn (h : Hub) (number : Nat) : List Stream :=
  h.streams.filter fun s => decide (s.tunnel = number)

theorem mem_streamsOn {s : Stream} :
    s ∈ h.streamsOn number ↔ s ∈ h.streams ∧ s.tunnel = number := by
  simp [streamsOn]

/-- The streams of a tunnel stay the same but for their clients. -/
theorem SameStreams.streamsOn (hsame : h.SameStreams next) (number : Nat) :
    List.Forall₂ Stream.SameButClient (h.streamsOn number) (next.streamsOn number) := by
  refine List.rel_filter ?_ hsame
  intro s s' hlike
  simp [hlike.tunnel]

/-- A new stream comes behind those of its tunnel. -/
theorem streamsOn_of_append {s : Stream} (heq : next.streams = h.streams ++ [s]) (number : Nat) :
    next.streamsOn number =
      if s.tunnel = number then h.streamsOn number ++ [s] else h.streamsOn number := by
  unfold streamsOn
  rw [heq, List.filter_append]
  split
  next hon => simp [hon]
  next hoff => simp [hoff]

theorem exists_split_of_getElem? {α : Type} {l : List α} {j : Nat} {a : α} (hget : l[j]? = some a) :
    ∃ pre post, l = pre ++ a :: post ∧ ∀ b, l.set j b = pre ++ b :: post := by
  obtain ⟨hlt, rfl⟩ := List.getElem?_eq_some_iff.mp hget
  refine ⟨l.take j, l.drop (j + 1), by simp, fun b => ?_⟩
  rw [List.set_eq_take_append_cons_drop, if_pos hlt]

/-- A stream of another tunnel goes on. -/
theorem streamsOn_set_of_ne {j : Nat} {s s' : Stream} (hs : h.streams[j]? = some s)
    (hplace : s'.tunnel = s.tunnel) (hne : s.tunnel ≠ number)
    (hnext : next.streams = h.streams.set j s') :
    List.Forall₂ Stream.SameButClient (h.streamsOn number) (next.streamsOn number) := by
  obtain ⟨pre, post, heq, hset⟩ := exists_split_of_getElem? hs
  have hsame : next.streamsOn number = h.streamsOn number := by
    unfold streamsOn
    rw [hnext, hset, heq]
    simp [hplace, hne]
  rw [hsame]
  exact List.forall₂_same.mpr fun x _ => x.sameButClient_refl

/-- Only the last stream of a tunnel goes on. -/
theorem exists_streamsOn_of_goesOn {j : Nat} {s s' : Stream} (hs : h.streams[j]? = some s)
    (hphase : s.phase ≠ .ended) (hpairwise : (h.streamsOn s.tunnel).Pairwise Stream.GivesWayTo)
    (hplace : s'.tunnel = s.tunnel) (hnext : next.streams = h.streams.set j s') :
    ∃ earlier, h.streamsOn s.tunnel = earlier ++ [s] ∧
      next.streamsOn s.tunnel = earlier ++ [s'] := by
  obtain ⟨pre, post, heq, hset⟩ := exists_split_of_getElem? hs
  have hbefore : h.streamsOn s.tunnel = pre.filter (fun x => decide (x.tunnel = s.tunnel)) ++
      s :: post.filter fun x => decide (x.tunnel = s.tunnel) := by
    unfold streamsOn
    rw [heq]
    simp
  have hafter : next.streamsOn s.tunnel = pre.filter (fun x => decide (x.tunnel = s.tunnel)) ++
      s' :: post.filter fun x => decide (x.tunnel = s.tunnel) := by
    unfold streamsOn
    rw [hnext, hset]
    simp [hplace]
  -- whoever comes after it would have got the seat from it
  have hnone : post.filter (fun x => decide (x.tunnel = s.tunnel)) = [] := by
    rw [hbefore] at hpairwise
    obtain ⟨hlast, _⟩ := List.pairwise_cons.mp (List.pairwise_append.mp hpairwise).2.1
    refine List.eq_nil_iff_forall_not_mem.mpr fun later hlater => ?_
    exact hphase (hlast later hlater).1
  rw [hnone] at hbefore hafter
  exact ⟨_, hbefore, hafter⟩

/-- What was handed out is what the streams carry, one after the other. -/
structure IsCarried (h : Hub) (number : Nat) (handed : List UInt8) : Prop where
  tidy : ∀ s ∈ h.streamsOn number, s.Tidy
  payload : (h.streamsOn number).flatMap Stream.payload = handed
  inTurn : ∀ t, h.tunnels[number]? = some t → Stream.InTurn (h.streamsOn number) t.readerSeat
  absent : h.tunnels[number]? = none → h.streamsOn number = []

/-- Clients do not change what the streams carry. -/
theorem flatMap_payload_eq {streams streams' : List Stream}
    (hsame : List.Forall₂ Stream.SameButClient streams streams') :
    streams'.flatMap Stream.payload = streams.flatMap Stream.payload := by
  induction hsame with
  | nil => rfl
  | cons hhead _ ih => rw [List.flatMap_cons, List.flatMap_cons, hhead.payload, ih]

/-- The streams of a tunnel are still in turn at the seat that it comes to have. -/
theorem IsCarried.inTurn_after? (hcarried : h.IsCarried number handed)
    (hmove : h.after? move = some next) {t' : Tunnel} (ht' : next.tunnels[number]? = some t') :
    Stream.InTurn (h.streamsOn number) t'.readerSeat := by
  cases ht : h.tunnels[number]? with
  | none =>
      rw [hcarried.absent ht]
      exact Stream.inTurn_nil _
  | some t =>
      obtain ⟨found, hfound, hbecomes⟩ := becomes_after? hmove ht
      rw [ht'] at hfound
      cases hfound
      exact (hcarried.inTurn t ht).later (hbecomes.later .reader)

theorem absent_of_after? (hmove : h.after? move = some next)
    (hnone : next.tunnels[number]? = none) : h.tunnels[number]? = none := by
  cases ht : h.tunnels[number]? with
  | none => rfl
  | some t =>
      obtain ⟨t', ht', _⟩ := becomes_after? hmove ht
      rw [hnone] at ht'
      cases ht'

theorem IsCarried.same (hcarried : h.IsCarried number handed) (hmove : h.after? move = some next)
    (hsame : List.Forall₂ Stream.SameButClient (h.streamsOn number) (next.streamsOn number)) :
    next.IsCarried number handed where
  tidy := by
    intro s' hs'
    obtain ⟨s, hs, hlike⟩ := Stream.exists_of_mem_forall₂ hsame hs'
    exact hlike.tidy (hcarried.tidy s hs)
  payload := by
    rw [flatMap_payload_eq hsame]
    exact hcarried.payload
  inTurn := fun t' ht' => (hcarried.inTurn_after? hmove ht').congr hsame
  absent := by
    intro hnone
    rw [hcarried.absent (absent_of_after? hmove hnone)] at hsame
    exact List.forall₂_nil_left_iff.mp hsame

/-- A stream that goes on holds the reader's seat. -/
theorem mem_held_of_goesOn {s : Stream} (hs : s ∈ h.streams) (hphase : s.phase ≠ .ended) :
    ⟨.reader, s.tunnel, s.ticket⟩ ∈ h.held :=
  List.mem_append_right _ (List.mem_append_left _
    (List.mem_flatMap.mpr ⟨s, hs, s.mem_claims_of_goesOn hphase⟩))

/-- A stream that has not ended is served. -/
theorem isServing_of_goesOn (hseated : h.IsSeated) {s : Stream} (hs : s ∈ h.streams)
    (hphase : s.phase ≠ .ended) {t : Tunnel} (ht : h.tunnels[s.tunnel]? = some t) :
    t.readerSeat.isServing s.ticket = true := by
  obtain ⟨t', ht', hserving⟩ := hseated.served _ (mem_held_of_goesOn hs hphase)
  rw [ht] at ht'
  cases ht'
  exact hserving

/-- The ticket of a stream that has not ended is not that of a call. -/
theorem not_mem_claims_of_goesOn (hseated : h.IsSeated) {s : Stream} (hs : s ∈ h.streams)
    (hphase : s.phase ≠ .ended) {c : Call} (hc : c ∈ h.calls) :
    ⟨.reader, s.tunnel, s.ticket⟩ ∉ c.claims := by
  intro hclaim
  have hcall : ⟨.reader, s.tunnel, s.ticket⟩ ∈ h.calls.flatMap Call.claims :=
    List.mem_flatMap.mpr ⟨c, hc, hclaim⟩
  have hstream : ⟨.reader, s.tunnel, s.ticket⟩ ∈ h.streams.flatMap Stream.claims :=
    List.mem_flatMap.mpr ⟨s, hs, s.mem_claims_of_goesOn hphase⟩
  exact (List.nodup_append.mp hseated.nodup).2.2 _ hcall _ (List.mem_append_left _ hstream) rfl

/-- When a request comes to have the reader's seat, the streams before it have ended. -/
theorem ended_of_isServing (hseated : h.IsSeated) {i ticket : Nat} {c : Call} {hold : Bool}
    (hc : h.calls[i]? = some c) (htask : c.task = some (.handle number (.awaitReader ticket) hold))
    {t : Tunnel} (ht : h.tunnels[number]? = some t)
    (hserving : t.readerSeat.isServing ticket = true) :
    ∀ s ∈ h.streamsOn number, s.phase = .ended := by
  intro s hs
  obtain ⟨hmem, rfl⟩ := mem_streamsOn.mp hs
  by_contra hphase
  have hsame := isServing_of_goesOn hseated hmem hphase ht
  rw [Seat.isServing_iff] at hserving hsame
  rw [hserving] at hsame
  cases hsame
  -- the ticket would be the request's and the stream's
  refine not_mem_claims_of_goesOn hseated hmem hphase (List.mem_of_getElem? hc) ?_
  simp [Call.claims, Call.taskClaim?, htask, Task.claim?, Handling.claim, Handling.role,
    Handling.ticket]

/-- A stream starts behind streams that have ended, and carries nothing yet. -/
theorem IsCarried.start (hcarried : h.IsCarried number handed) (hseated : h.IsSeated)
    {i other ticket : Nat} (hmove : h.after? (.go (.call i)) = some next)
    (hstart : h.StartsStream next i other ticket) : next.IsCarried number handed := by
  obtain ⟨c, hold, t, hc, htask, ht, hserving, heq⟩ := hstart
  have hstreams := streamsOn_of_append heq number
  by_cases hon : other = number
  · subst hon
    have hon : (Stream.start h.clock other ticket t).tunnel = other := rfl
    rw [if_pos hon] at hstreams
    have hstarted := (hcarried.inTurn t ht).start (s := Stream.start h.clock other ticket t)
      (ended_of_isServing hseated hc htask ht hserving) hserving (by simp [Stream.start])
    refine ⟨?_, ?_, ?_, ?_⟩
    · rw [hstreams]
      intro s hs
      rcases List.mem_append.mp hs with hold | hnew
      · exact hcarried.tidy s hold
      · rw [List.mem_singleton.mp hnew]
        exact Stream.tidy_of_isOngoing ⟨by simp [Stream.start], by simp [Stream.start]⟩ .nil
    · rw [hstreams, List.flatMap_append, hcarried.payload]
      exact List.append_nil _
    · intro t' ht'
      obtain ⟨found, hfound, hbecomes⟩ := becomes_after? hmove ht
      rw [ht'] at hfound
      cases hfound
      rw [hstreams]
      exact hstarted.later (hbecomes.later .reader)
    · intro hnone
      rw [absent_of_after? hmove hnone] at ht
      cases ht
  · refine hcarried.same hmove ?_
    have hoff : (Stream.start h.clock other ticket t).tunnel ≠ number := hon
    rw [hstreams, if_neg hoff]
    exact List.forall₂_same.mpr fun s _ => s.sameButClient_refl

/-- What is handed out goes to the last stream, and stays behind what the earlier ones carry. -/
theorem IsCarried.step {j : Nat} {s s' : Stream} {t : Tunnel} {after : Stream.Surroundings}
    (hcarried : h.IsCarried s.tunnel handed) (hseated : h.IsSeated) (hsound : t.reader.Sound)
    (hs : h.streams[j]? = some s) (ht : h.tunnels[s.tunnel]? = some t)
    (hstep : s.Step h.clock h.registry t after s')
    (htunnels : next.tunnels = h.tunnels.set s.tunnel after.tunnel)
    (hstreams : next.streams = h.streams.set j s') :
    next.IsCarried s.tunnel (handed ++ s.handedAt h.clock t) := by
  have hphase := hstep.phase_ne_ended
  have hturn := hcarried.inTurn t ht
  obtain ⟨hplace, hticket⟩ := hstep.place
  obtain ⟨earlier, hbefore, hafter⟩ :=
    exists_streamsOn_of_goesOn hs hphase hturn.pairwise hplace hstreams
  have htidy := hcarried.tidy
  rw [hbefore] at hturn htidy
  refine ⟨?_, ?_, ?_, ?_⟩
  · rw [hafter]
    intro x hx
    rcases List.mem_append.mp hx with hold | hnew
    · exact htidy x (List.mem_append_left _ hold)
    · rw [List.mem_singleton.mp hnew]
      exact hstep.tidy (htidy s (List.mem_append_right _ (List.mem_singleton_self s))) hsound
  · rw [hafter, ← hcarried.payload, hbefore]
    simp [hstep.payload]
  · intro t' ht'
    rw [htunnels, getElem?_set_of_getElem? ht] at ht'
    cases ht'
    rw [hafter]
    exact hturn.step (hseated.ordered s.tunnel t ht .reader)
      (isServing_of_goesOn hseated (List.mem_of_getElem? hs) hphase ht) hticket hstep.readerSeat
  · intro hnone
    rw [htunnels, getElem?_set_of_getElem? ht] at hnone
    cases hnone

/-! ## Along a run -/

theorem not_readsAt_of_calls (hother : ∀ j, move ≠ .go (.stream j))
    (hreads : ∀ c ∈ h.calls, ¬ c.readsFrom number) : ¬ h.readsAt move number := by
  intro hat
  match move with
  | .go (.call i) =>
      obtain ⟨c, hc, hfrom⟩ := hat
      exact hreads c (List.mem_of_getElem? hc) hfrom
  | .go (.stream j) => exact hother j rfl
  | .go (.sweeper _) | .act _ | .takeNews => exact hat

theorem handed_of_other (hother : ∀ j, move ≠ .go (.stream j)) :
    Record.handed ⟨h, move, next⟩ number = [] := by
  unfold Record.handed
  split
  next j heq => exact absurd heq (hother j)
  · rfl
  · rfl
  · rfl
  · rfl

/-- What a move of a stream hands out is the batch that its read gives. -/
theorem handed_of_stream {j : Nat} {s : Stream} {t : Tunnel} (hs : h.streams[j]? = some s)
    (ht : h.tunnels[s.tunnel]? = some t) :
    Record.handed ⟨h, .go (.stream j), next⟩ s.tunnel = s.handedAt h.clock t := by
  simp [Record.handed, hs, ht]

theorem handed_of_ne {j : Nat} {s : Stream} (hs : h.streams[j]? = some s)
    (hne : s.tunnel ≠ number) :
    Record.handed ⟨h, .go (.stream j), next⟩ number = [] := by
  simp only [Record.handed]
  split
  next found t hfound _ =>
    rw [hs] at hfound
    cases hfound
    exact if_neg hne
  · rfl

/-- One move keeps what the streams of a tunnel and its source have to do with each other. -/
theorem carried_after? (hseated : h.IsSeated) (hsourced : h.IsSourced number handed supplied)
    (hcarried : h.IsCarried number handed) (hreads : ∀ c ∈ h.calls, ¬ c.readsFrom number)
    (hmove : h.after? move = some next) :
    next.IsSourced number (handed ++ Record.handed ⟨h, move, next⟩ number)
        (supplied ++ Record.supplied ⟨h, move, next⟩ number) ∧
      next.IsCarried number (handed ++ Record.handed ⟨h, move, next⟩ number) := by
  cases streamsMove_after? hmove with
  | same hother hsame =>
      rw [handed_of_other hother, List.append_nil]
      exact ⟨hsourced.after? hmove (not_readsAt_of_calls hother hreads),
        hcarried.same hmove (hsame.streamsOn number)⟩
  | @start i other ticket next hstart =>
      have hother (j : Nat) : Move.go (.call i) ≠ .go (.stream j) := by simp
      rw [handed_of_other hother, List.append_nil]
      exact ⟨hsourced.after? hmove (not_readsAt_of_calls hother hreads),
        hcarried.start hseated hmove hstart⟩
  | @step j s s' t after hs ht hstep =>
      by_cases hon : s.tunnel = number
      · subst hon
        rw [handed_of_stream hs ht]
        exact ⟨hsourced.step ht hstep rfl,
          hcarried.step hseated (hsourced.sound t ht) hs ht hstep rfl rfl⟩
      · rw [handed_of_ne hs hon, List.append_nil]
        refine ⟨hsourced.after? hmove ?_, hcarried.same hmove ?_⟩
        · rintro ⟨s₀, hs₀, hplace, _⟩
          rw [hs] at hs₀
          cases hs₀
          exact hon hplace
        · exact streamsOn_set_of_ne hs hstep.place.1 hon rfl

/-- The run lemma, by induction over the run. -/
theorem carried_of_run {log : List Record} (hrun : Run {} log h) (number : Nat)
    (hreads : ∀ r ∈ log, ∀ c ∈ r.before.calls, ¬ c.readsFrom number) :
    h.IsSourced number (log.flatMap (·.handed number)) (log.flatMap (·.supplied number)) ∧
      h.IsCarried number (log.flatMap (·.handed number)) := by
  induction hrun with
  | nil =>
      refine ⟨⟨?_, ?_, fun _ => ⟨rfl, rfl⟩⟩, ⟨?_, rfl, ?_, fun _ => rfl⟩⟩
      · intro t ht
        cases ht
      · intro t ht
        cases ht
      · intro s hs
        cases hs
      · intro t ht
        cases ht
  | @snoc log h next move hrun hmove ih =>
      obtain ⟨hsourced, hcarried⟩ := ih fun r hr => hreads r (List.mem_append_left _ hr)
      have hlast := hreads _ (List.mem_append_right _ (List.mem_singleton_self _))
      have hnext := carried_after? (isSeated_of_reaches hrun.reaches) hsourced hcarried hlast hmove
      simp only [List.flatMap_append, List.flatMap_singleton]
      exact hnext

/-- Along every run in which nobody but streams reads from a tunnel: its streams have the
reader one after the other, in the order of their tickets. Each response is made of whole
instructions, after which at most the terminating instruction follows. What they carry, one
after the other, is what was handed out, which is made of whole instructions and is, with
what the reader still has, what was supplied to the source. -/
theorem streams_carry_source {log : List Record} (hrun : Run {} log h) {number : Nat} {t : Tunnel}
    (ht : h.tunnels[number]? = some t)
    (hreads : ∀ r ∈ log, ∀ c ∈ r.before.calls, ¬ c.readsFrom number) :
    (h.streamsOn number).Pairwise Stream.GivesWayTo ∧
      (∀ s ∈ h.streamsOn number, s.Tidy) ∧
      (h.streamsOn number).flatMap Stream.payload = log.flatMap (·.handed number) ∧
      Whole (log.flatMap (·.handed number)) ∧
      log.flatMap (·.handed number) ++ t.reader.unread = log.flatMap (·.supplied number) := by
  obtain ⟨hsourced, hcarried⟩ := carried_of_run hrun number hreads
  refine ⟨(hcarried.inTurn t ht).pairwise, hcarried.tidy, hcarried.payload, ?_,
    hsourced.conserved t ht⟩
  rw [← hcarried.payload]
  refine Whole.flatten fun batch hbatch => ?_
  obtain ⟨s, hs, rfl⟩ := List.mem_map.mp hbatch
  exact (hcarried.tidy s hs).whole

/-- Two requests read from a tunnel: the first gives way to the second after one
instruction. -/
def takingTurns : List Move :=
  let read : Request :=
    { query := Operation.readPrefix ++ (Identity.random 0).text, connection := .error .notCreated }
  [.act (.open (Identity.random 0) none {} [.data (Utf8.ofString "1.a;")]),
    .act (.put (Identity.random 0).text 0),
    .act (.call "first" (.request read)), .act (.call "second" (.request read)),
    .go (.call 0), .go (.stream 0), .go (.stream 0), .go (.stream 0),
    .go (.call 1), .act (.feed 0 [.data (Utf8.ofString "1.b;1.")]), .go (.stream 1)]

theorem streams_carry_source_in_turns :
    ∃ t, (({} : Hub).replay takingTurns).2.tunnels[0]? = some t ∧
      (({} : Hub).replay takingTurns).1.length = takingTurns.length ∧
      ((({} : Hub).replay takingTurns).2.streamsOn 0).length = 2 ∧
      ((({} : Hub).replay takingTurns).2.streamsOn 0).flatMap Stream.payload =
        (({} : Hub).replay takingTurns).1.flatMap (·.handed 0) ∧
      (({} : Hub).replay takingTurns).1.flatMap (·.handed 0) = Utf8.ofString "1.a;1.b;" ∧
      t.reader.unread = Utf8.ofString "1." := by
  obtain ⟨_, _, hpayload, _⟩ :=
    streams_carry_source (run_replay {} takingTurns) (t := _) (show _[0]? = _ from rfl) (by decide)
  exact ⟨_, rfl, rfl, by decide, hpayload, by decide, by decide⟩

end Hub

end LongPollTunnel

import LongPollTunnel.Proofs.Delivering
import LongPollTunnel.Proofs.Foresight
import LongPollTunnel.Proofs.Readers

/-! # Nothing is held back while a stream waits

A stream flushes unless it was told that more can be had at once. That stays true until it reads,
since nobody else reads from its tunnel in the meantime. Main statement: along every run, whatever
the source, the clients and other requests do, a stream that waits for its source has passed on
everything that it was handed out.
-/

namespace LongPollTunnel

/-- Without the right to read, whoever could tell something still can. -/
theorem Tunnel.Becomes.canTell {may : Tunnel.Rights} {t after : Tunnel}
    (hbecomes : t.Becomes may after) (hreads : ¬ may.reads)
    (htell : t.reader.CanTell (!t.isOpen)) :
    after.reader.CanTell (!after.isOpen) := by
  induction hbecomes with
  | refl => exact htell
  | draw _ role _ ih =>
      rw [reader_draw, isOpen_draw]
      exact ih
  | leave role ticket _ ih =>
      rw [reader_leave, isOpen_leave]
      exact ih
  | shut _ _ => exact Or.inl rfl
  | shutAndDraw _ _ _ =>
      rw [isOpen_draw]
      exact Or.inl rfl
  | available _ ih => exact ih.available.1
  | flush _ hflush ih =>
      rw [(sameButSink_flush? hflush).reader_eq, (sameButSink_flush? hflush).isOpen_eq]
      exact ih
  | shutdown _ hshutdown ih =>
      rw [(sameButSink_shutdown? hshutdown).reader_eq, (sameButSink_shutdown? hshutdown).isOpen_eq]
      exact ih
  | readSome h => exact absurd h hreads
  | readInstruction h => exact absurd h hreads
  | _ => assumption

namespace Stream

variable {now : Nat} {s s' : Stream} {r : Registry} {t : Tunnel} {around after : Surroundings}
  {batches : List (List UInt8)}

/-- A stream that is about to read holds nothing back, or it can read at once. -/
def IsPrompt (s : Stream) (t : Tunnel) : Prop :=
  ∀ deadline, s.phase = .reading deadline → s.outlet.buffer = [] ∨ t.reader.CanTell (!t.isOpen)

theorem isPrompt_of_phase (hphase : ∀ deadline, s.phase ≠ .reading deadline) (t : Tunnel) :
    s.IsPrompt t :=
  fun deadline hreading => absurd hreading (hphase deadline)

/-- The stream is inside a read that waits for the source. -/
def AwaitsSource (s : Stream) (now : Nat) (t : Tunnel) : Prop :=
  ∃ deadline, s.phase = .reading deadline ∧
    (t.readSome (deadline.any fun time => decide (time ≤ now))).1 = .waiting

/-- Whoever can read at once does not wait. -/
theorem IsPrompt.buffer_eq (hprompt : s.IsPrompt t) (hsound : t.reader.Sound)
    (hawaits : s.AwaitsSource now t) : s.outlet.buffer = [] := by
  obtain ⟨deadline, hphase, hwaiting⟩ := hawaits
  rcases hprompt deadline hphase with hempty | htell
  · exact hempty
  · exact absurd hwaiting (htell.readSome hsound _).1

theorem GoesOn.isPrompt (hgoesOn : s.GoesOn around after s') (hbuffer : s.outlet.buffer = [])
    (t : Tunnel) : s'.IsPrompt t := by
  rcases hgoesOn.stream with rfl | ⟨deadline, rfl⟩ | rfl | rfl
  · exact isPrompt_of_phase (by simp [finish]) t
  · exact fun _ _ => Or.inl hbuffer
  · exact isPrompt_of_phase (by simp) t
  · exact isPrompt_of_phase (by simp) t

/-- A stream reads on only after a flush or after it has found that more can be had at once. -/
theorem Step.isPrompt (hstep : s.Step now r t after s') (hsound : t.reader.Sound)
    (hprompt : s.IsPrompt t) : s'.IsPrompt after.tunnel := by
  cases hstep with
  | idles hphase hread => exact isPrompt_of_phase (by simp [finish]) _
  | @reads deadline batch read _ _ hphase hread hwrite hsome hroom hready =>
      intro deadline hreading
      have hlook := hready deadline hreading
      have hafter : after.tunnel = read.available.2 := by rw [hlook]
      rw [hafter]
      exact Or.inr (Reader.canTell_of_available (congrArg Prod.fst hlook))
  | waits hphase hread =>
      have hawaits : s.AwaitsSource now t := ⟨_, hphase, congrArg Prod.fst hread⟩
      exact fun _ _ => Or.inl (hprompt.buffer_eq hsound hawaits)
  | flushes hphase hnext hflush hgoesOn => exact hgoesOn.isPrompt (Outlet.buffer_flush hflush) _
  | leaves hphase hflush => exact isPrompt_of_phase (by simp [leave]) _
  | fails _ _ | loses _ _ _ => exact isPrompt_of_phase (s.givesUp_fail _ _).not_reading _
  | closes _ _ => exact isPrompt_of_phase (s.givesUp_afterTeardown _ _).not_reading _

theorem SameButClient.isPrompt (hsame : s.SameButClient s') (hprompt : s.IsPrompt t) :
    s'.IsPrompt t := by
  unfold IsPrompt
  rw [hsame.phase, hsame.buffer]
  exact hprompt

/-- A step of a stream that waits leaves it as it is and hands out nothing. -/
theorem Step.of_awaitsSource (hstep : s.Step now r t after s') (hawaits : s.AwaitsSource now t) :
    s' = s ∧ s.handedAt now t = [] := by
  obtain ⟨deadline, hphase, hwaiting⟩ := hawaits
  have hother {read : Tunnel} {deadline' : Option Nat} {outcome : Outcome Failure (List UInt8)}
      (hphase' : s.phase = .reading deadline')
      (hread : t.readSome (deadline'.any fun time => decide (time ≤ now)) = (outcome, read)) :
      outcome = .waiting := by
    obtain rfl := Phase.reading.inj (hphase.symm.trans hphase')
    rw [hread] at hwaiting
    exact hwaiting
  cases hstep with
  | waits hphase' hread => exact ⟨rfl, handedAt_eq hphase' hread⟩
  | idles hphase' hread | reads hphase' hread | fails hphase' hread =>
      cases hother hphase' hread
  | flushes hphase' | leaves hphase' | loses hphase' | closes hphase' =>
      rw [hphase] at hphase'
      cases hphase'

/-- The stream reads, and everything that it was handed out has been passed on. -/
structure HasPassedAll (s : Stream) (batches : List (List UInt8)) : Prop where
  reading : ∃ deadline, s.phase = .reading deadline
  buffer : s.outlet.buffer = []
  chunks : s.outlet.chunks.flatten = batches.flatten

theorem SameButClient.hasPassedAll (hsame : s.SameButClient s') (hpassed : s.HasPassedAll batches) :
    s'.HasPassedAll batches where
  reading := by
    rw [hsame.phase]
    exact hpassed.reading
  buffer := hsame.buffer.trans hpassed.buffer
  chunks := by
    rw [hsame.chunks]
    exact hpassed.chunks

/-- A client that has to wait has taken everything that the stream was handed out. -/
theorem HasPassedAll.taken (hpassed : s.HasPassedAll batches)
    (hwaits : s.outlet.take = .nothingYet) :
    (s.outlet.chunks.take s.outlet.taken).flatten = batches.flatten := by
  unfold Outlet.take at hwaits
  split at hwaits
  · cases hwaits
  next hnone =>
    rw [List.take_of_length_le (List.getElem?_eq_none_iff.mp hnone)]
    exact hpassed.chunks

end Stream

namespace Hub

variable {h next : Hub} {log : List Record} {j : Nat} {move : Move}

/-- No stream holds anything back that is about to read and may have to wait. -/
def IsPrompt (h : Hub) : Prop :=
  ∀ (j : Nat) (s : Stream) (t : Tunnel), h.streams[j]? = some s →
    h.tunnels[s.tunnel]? = some t → s.IsPrompt t

theorem IsPrompt.after? (hprompt : h.IsPrompt) (hreaches : Reaches {} h)
    (hmove : h.after? move = some next) : next.IsPrompt := by
  intro j s' t' hs' ht'
  cases streamMove_after? hmove j with
  | same hnone hsame habsent =>
      obtain ⟨s, hs, hlike⟩ := hsame s' hs'
      intro deadline hreading
      have hphase : s.phase ≠ .ended := by simp [← hlike.phase, hreading]
      obtain ⟨t, ht, _⟩ := (isSeated_of_reaches hreaches).served _
        (mem_held_of_goesOn (List.mem_of_getElem? hs) hphase)
      obtain ⟨found, hfound, hbecomes⟩ := becomes_after? hmove ht
      rw [hlike.tunnel, hfound] at ht'
      cases ht'
      -- whoever reads would be the stream itself
      have hreads : ¬ h.readsAt move s.tunnel := by
        intro hat
        obtain rfl := eq_of_readsAt hreaches hs hphase ht hat
        simp [Record.stream?, hs] at hnone
      have hbefore := hlike.isPrompt (hprompt j s t hs ht)
      exact (hbefore deadline hreading).imp_right (hbecomes.canTell hreads)
  | start hnone habsent ht hs =>
      rw [hs] at hs'
      cases hs'
      exact fun _ _ => Or.inl rfl
  | step _ hs ht hstep hs'' ht'' =>
      rw [hs''] at hs'
      cases hs'
      rw [hstep.place.1, ht''] at ht'
      cases ht'
      exact hstep.isPrompt (hasSoundReaders_of_reaches hreaches _ _ ht) (hprompt j _ _ hs ht)

theorem isPrompt_of_run (hrun : Run {} log h) : h.IsPrompt := by
  induction hrun with
  | nil =>
      intro j s t hs
      cases hs
  | snoc hrun hmove ih => exact ih.after? hrun.reaches hmove

/-- The stream with this number is inside a read that waits for the source. -/
def AwaitsSource (h : Hub) (j : Nat) : Prop :=
  ∃ s t, h.streams[j]? = some s ∧ h.tunnels[s.tunnel]? = some t ∧ s.AwaitsSource h.clock t

/-- The stream with this number has passed everything on. -/
def HasPassedAll (h : Hub) (log : List Record) (j : Nat) : Prop :=
  ∃ s, h.streams[j]? = some s ∧ s.HasPassedAll (batchesOf log j)

theorem AwaitsSource.hasPassedAll (hawaits : h.AwaitsSource j) (hrun : Run {} log h) :
    h.HasPassedAll log j := by
  obtain ⟨s, t, hs, ht, hwaiting⟩ := hawaits
  have hsound := hasSoundReaders_of_reaches hrun.reaches _ _ ht
  have hbuffer := (isPrompt_of_run hrun j s t hs ht).buffer_eq hsound hwaiting
  obtain ⟨deadline, hphase, hread⟩ := hwaiting
  -- nobody waits for the source of a closed tunnel
  have hclosed : h.isClosedAt s.tunnel = false := by
    have hopen := (Reader.intact_of_readSome hread).1
    simpa [isClosedAt, ht] using hopen
  obtain ⟨passed, held, hhas, hbatches, _⟩ :=
    ((isDelivering_of_run hrun j).account s hs hclosed).of_isCopying (Or.inl ⟨deadline, hphase⟩)
  refine ⟨s, hs, ⟨deadline, hphase⟩, hbuffer, ?_⟩
  rw [hhas.chunks, hbatches, List.flatten_append, ← hhas.buffer, hbuffer, List.append_nil]

/-- It stays so as long as the stream does nothing but wait. -/
theorem HasPassedAll.after? (hpassed : h.HasPassedAll log j) (hmove : h.after? move = some next)
    (hwaits : Record.stream? ⟨h, move, next⟩ j ≠ none → h.AwaitsSource j) :
    next.HasPassedAll (log ++ [⟨h, move, next⟩]) j := by
  obtain ⟨s, hs, hall⟩ := hpassed
  cases streamMove_after? hmove j with
  | same hnone hsame habsent =>
      cases hs' : next.streams[j]? with
      | none =>
          rw [habsent hs'] at hs
          cases hs
      | some s' =>
          obtain ⟨before, hbefore, hlike⟩ := hsame s' hs'
          rw [hs] at hbefore
          cases hbefore
          refine ⟨s', hs', ?_⟩
          rw [(log_of_stream?_eq_none log hnone).1]
          exact hlike.hasPassedAll hall
  | start _ habsent _ _ =>
      rw [habsent] at hs
      cases hs
  | step hgo hthere ht hstep hs' _ =>
      subst hgo
      rw [hs] at hthere
      cases hthere
      obtain ⟨found, t₀, hfound, ht₀, hwaiting⟩ := hwaits (by simp [Record.stream?, hs])
      rw [hs] at hfound
      cases hfound
      rw [ht] at ht₀
      cases ht₀
      obtain ⟨rfl, hhanded⟩ := hstep.of_awaitsSource hwaiting
      refine ⟨_, hs', ?_⟩
      rw [batchesOf_snoc, batches_of_stream hs ht, hhanded, batchOf_nil, List.append_nil]
      exact hall

/-- Along every run from an empty hub, whatever the source, the clients and other requests do:
when a stream has come to wait for its source, and as long as it does nothing but wait, it holds
nothing back. Everything that it was handed out has been passed on, and a client that has to wait
has taken all of it. -/
theorem waits_with_nothing_held_back {early late : List Record} {middle : Hub}
    (hrun : Run {} early middle) (hawaits : middle.AwaitsSource j) (hlater : Run middle late h)
    (hwaits : ∀ r ∈ late, r.stream? j ≠ none → r.before.AwaitsSource j) :
    ∃ s, h.streams[j]? = some s ∧ s.outlet.buffer = [] ∧
      s.outlet.chunks.flatten = (batchesOf (early ++ late) j).flatten ∧
      (s.outlet.take = .nothingYet →
        (s.outlet.chunks.take s.outlet.taken).flatten = (batchesOf (early ++ late) j).flatten) := by
  have hpassed : h.HasPassedAll (early ++ late) j := by
    induction hlater with
    | nil =>
        rw [List.append_nil]
        exact hawaits.hasPassedAll hrun
    | snoc _ hmove ih =>
        have hbefore := ih fun r hr => hwaits r (List.mem_append_left _ hr)
        rw [← List.append_assoc]
        exact hbefore.after? hmove
          (hwaits _ (List.mem_append_right _ (List.mem_singleton_self _)))
  obtain ⟨s, hs, hall⟩ := hpassed
  exact ⟨s, hs, hall.buffer, hall.chunks, hall.taken⟩

/-- An instruction and the first part of another have arrived. Once the one is passed on, the
stream waits. -/
def waitingForTheRest : List Move :=
  let read : Request :=
    { query := Operation.readPrefix ++ (Identity.random 0).text, connection := .error .notCreated }
  [.act (.open (Identity.random 0) none {} [.data (Utf8.ofString "3.nop;4.sy")]),
    .act (.put (Identity.random 0).text 0), .act (.call "first" (.request read)),
    .go (.call 0), .go (.stream 0), .go (.stream 0)]

/-- More arrives, but not yet all of it, and the stream waits on. -/
theorem waits_with_nothing_held_back_for_the_rest :
    ∃ s, ((({} : Hub).replay waitingForTheRest).2.replay
        [.act (.feed 0 [.data (Utf8.ofString "nc,")]), .go (.stream 0)]).2.streams[0]? = some s ∧
      s.outlet.buffer = [] ∧ s.outlet.chunks.flatten = Utf8.ofString "3.nop;" := by
  obtain ⟨s, hs, hbuffer, hchunks, _⟩ := waits_with_nothing_held_back
    (run_replay {} waitingForTheRest) (j := 0) ⟨_, _, rfl, rfl, none, rfl, by decide +kernel⟩
    (run_replay _ [.act (.feed 0 [.data (Utf8.ofString "nc,")]), .go (.stream 0)]) (by
      intro r hr hown
      rcases List.mem_cons.mp hr with rfl | hlast
      · exact absurd rfl hown
      · obtain rfl := List.mem_singleton.mp hlast
        exact ⟨_, _, rfl, rfl, none, rfl, by decide +kernel⟩)
  refine ⟨s, hs, hbuffer, hchunks.trans ?_⟩
  decide +kernel

end Hub

end LongPollTunnel

import LongPollTunnel.Proofs.Changes

/-! # What one response carries

What a stream writes to its response is what the reader hands out to it, and at the end at
most one terminating instruction. It carries whole instructions, and it ends with everything
passed on unless its client is gone. Main statement: each step of a stream adds to its
payload exactly what the reader has handed out in it.
-/

namespace LongPollTunnel

open Framing

namespace Stream

/-- What was written to the response, but for the terminating instruction. -/
def payload (s : Stream) : List UInt8 :=
  match s.phase with
  | .reading _ | .flushing .lookAhead | .flushing .yield | .closing _ _ => s.outlet.content
  | .flushing .leave | .ended =>
    s.outlet.content.take (s.outlet.content.length - Instruction.terminator.length)

/-- The response has not been ended with the terminating instruction. -/
def IsOngoing (s : Stream) : Prop :=
  s.phase ≠ .flushing .leave ∧ s.phase ≠ .ended

theorem payload_of_isOngoing {s : Stream} (hongoing : s.IsOngoing) :
    s.payload = s.outlet.content := by
  unfold payload
  split
  · rfl
  · rfl
  · rfl
  · rfl
  next hphase => exact absurd hphase hongoing.1
  next hphase => exact absurd hphase hongoing.2

/-- The payload is made of whole instructions, at most a terminating instruction follows
it, and a response that has ended has been passed on if its client is there. -/
structure Tidy (s : Stream) : Prop where
  whole : Whole s.payload
  content : s.outlet.content = s.payload ∨
    s.outlet.content = s.payload ++ Instruction.terminator
  passed : s.phase = .ended → s.outlet.abandoned = false → s.outlet.buffer = []

theorem tidy_of_isOngoing {s : Stream} (hongoing : s.IsOngoing) (hwhole : Whole s.outlet.content) :
    s.Tidy where
  whole := by
    rw [payload_of_isOngoing hongoing]
    exact hwhole
  content := Or.inl (payload_of_isOngoing hongoing).symm
  passed := fun hended => absurd hended hongoing.2

/-- The terminating instruction is no part of the payload. -/
theorem payload_finish (s : Stream) : s.finish.payload = s.outlet.content := by
  have hcontent : s.finish.outlet.content = s.outlet.content ++ Instruction.terminator :=
    s.outlet.content_write _
  change s.finish.outlet.content.take _ = _
  rw [hcontent, List.length_append, Nat.add_sub_cancel, List.take_left]

theorem tidy_finish {s : Stream} (hwhole : Whole s.outlet.content) : s.finish.Tidy where
  whole := by
    rw [payload_finish]
    exact hwhole
  content := by
    rw [payload_finish]
    exact Or.inr (s.outlet.content_write _)
  passed := by
    intro hended
    cases hended

/-- A stream goes on with what its outlet has got. -/
theorem GoesOn.payload {s s' : Stream} {around after : Surroundings}
    (hgoesOn : s.GoesOn around after s') : s'.payload = s.outlet.content := by
  rcases hgoesOn.stream with rfl | ⟨deadline, rfl⟩ | rfl | rfl
  · exact s.payload_finish
  · rfl
  · rfl
  · rfl

/-- A stream that goes on has whole instructions in its outlet and nothing else. -/
theorem GoesOn.tidy {s s' : Stream} {around after : Surroundings}
    (hgoesOn : s.GoesOn around after s') (hwhole : Whole s.outlet.content) : s'.Tidy := by
  rcases hgoesOn.stream with rfl | ⟨deadline, rfl⟩ | rfl | rfl
  · exact tidy_finish hwhole
  · exact tidy_of_isOngoing ⟨by simp, by simp⟩ hwhole
  · exact tidy_of_isOngoing ⟨by simp, by simp⟩ hwhole
  · exact tidy_of_isOngoing ⟨by simp, by simp⟩ hwhole

/-- A response in which nothing was written is empty. -/
theorem content_eq_nil_of_not_hasWritten {o : Outlet} (hwritten : o.hasWritten = false) :
    o.content = [] ∧ o.buffer = [] := by
  simp only [Outlet.hasWritten, Bool.or_eq_false_iff, Bool.not_eq_false',
    List.isEmpty_iff] at hwritten
  simp [Outlet.content, hwritten.1, hwritten.2]

/-- After a failure nothing but the terminating instruction is written; it is left out if the
response has nothing in it. -/
theorem GivesUp.payload {s s' : Stream} (hgivesUp : s.GivesUp s') :
    s'.payload = s.outlet.content := by
  cases hgivesUp with
  | finishes => exact s.payload_finish
  | ends hnothing _ =>
      have hnil := (content_eq_nil_of_not_hasWritten hnothing).1
      change List.take _ s.outlet.content = s.outlet.content
      rw [hnil, List.take_nil]
  | closes _ _ => rfl

/-- Who gives up leaves a tidy response, which may be empty. -/
theorem GivesUp.tidy {s s' : Stream} (hgivesUp : s.GivesUp s') (hwhole : Whole s.outlet.content) :
    s'.Tidy := by
  have hpayload := hgivesUp.payload
  cases hgivesUp with
  | finishes => exact tidy_finish hwhole
  | ends hnothing _ =>
      refine ⟨?_, Or.inl hpayload.symm, fun _ _ => (content_eq_nil_of_not_hasWritten hnothing).2⟩
      rw [hpayload]
      exact hwhole
  | closes _ _ => exact tidy_of_isOngoing ⟨by simp, by simp⟩ hwhole

/-! ## Steps -/

/-- What the reader of the stream's tunnel hands out to it in its next step. -/
def handedAt (s : Stream) (now : Nat) (t : Tunnel) : List UInt8 :=
  match s.phase with
  | .reading deadline => Reader.handed (t.readSome (deadline.any fun time => decide (time ≤ now))).1
  | .flushing _ | .closing _ _ | .ended => []

section

variable {now : Nat} {s s' : Stream} {r : Registry} {t : Tunnel} {after : Surroundings}

/-- A stream is handed what its read gives. -/
theorem handedAt_eq {deadline : Option Nat} {outcome : Outcome Failure (List UInt8)} {read : Tunnel}
    (hphase : s.phase = .reading deadline)
    (hread : t.readSome (deadline.any fun time => decide (time ≤ now)) = (outcome, read)) :
    s.handedAt now t = Reader.handed outcome := by
  simp [handedAt, hphase, hread]

theorem isOngoing_of_reading {deadline : Option Nat} (hphase : s.phase = .reading deadline) :
    s.IsOngoing := by
  simp [IsOngoing, hphase]

theorem isOngoing_of_flushing {next : Next} (hphase : s.phase = .flushing next)
    (hnext : next ≠ .leave) : s.IsOngoing := by
  simp [IsOngoing, hphase, hnext]

theorem content_of_flush {outlet : Outlet}
    (hflush : s.outlet.flush = .passed outlet ∨ (s.outlet.flush = .gone ∧ outlet = s.outlet)) :
    outlet.content = s.outlet.content := by
  rcases hflush with hpassed | ⟨_, rfl⟩
  · exact Outlet.content_flush hpassed
  · rfl

/-- The last flush adds nothing, whether the client is there or gone. -/
theorem payload_leaves {outlet : Outlet} (around : Surroundings)
    (hphase : s.phase = .flushing .leave)
    (hflush : s.outlet.flush = .passed outlet ∨ (s.outlet.flush = .gone ∧ outlet = s.outlet)) :
    ({ s with outlet }.leave around).2.payload = s.payload := by
  have hended : ({ s with outlet }.leave around).2.payload =
      outlet.content.take (outlet.content.length - Instruction.terminator.length) := rfl
  rw [hended, content_of_flush hflush]
  simp [Stream.payload, hphase]

/-- A client to which nothing can be passed on is gone. -/
theorem abandoned_of_flush_eq_gone {o : Outlet} (hgone : o.flush = .gone) : o.abandoned = true := by
  unfold Outlet.flush at hgone
  split at hgone
  · cases hgone
  · split at hgone
    next habandoned => exact habandoned
    · split at hgone <;> cases hgone

/-- A step adds to the payload what the reader hands out in it. -/
theorem Step.payload (hstep : s.Step now r t after s') :
    s'.payload = s.payload ++ s.handedAt now t := by
  cases hstep with
  | idles hphase hread =>
      rw [handedAt_eq hphase hread, payload_finish,
        payload_of_isOngoing (isOngoing_of_reading hphase)]
      exact (List.append_nil _).symm
  | reads hphase hread hwrite =>
      rw [handedAt_eq hphase hread, hwrite.payload,
        payload_of_isOngoing (isOngoing_of_reading hphase)]
      exact s.outlet.content_write _
  | waits hphase hread =>
      rw [handedAt_eq hphase hread]
      exact (List.append_nil _).symm
  | fails hphase hread =>
      rw [handedAt_eq hphase hread, (s.givesUp_fail _ _).payload,
        payload_of_isOngoing (isOngoing_of_reading hphase)]
      exact (List.append_nil _).symm
  | flushes hphase hnext hflush hgoesOn =>
      rw [hgoesOn.payload, payload_of_isOngoing (isOngoing_of_flushing hphase hnext),
        Outlet.content_flush hflush]
      simp [handedAt, hphase]
  | leaves hphase hflush =>
      rw [payload_leaves _ hphase hflush]
      simp [handedAt, hphase]
  | loses hphase hnext hgone =>
      rw [(s.givesUp_fail _ _).payload, payload_of_isOngoing (isOngoing_of_flushing hphase hnext)]
      simp [handedAt, hphase]
  | closes hphase hclose =>
      have hongoing : s.IsOngoing := by simp [IsOngoing, hphase]
      rw [(s.givesUp_afterTeardown _ _).payload, payload_of_isOngoing hongoing]
      simp [handedAt, hphase]

/-- What a stream is handed consists of whole instructions. -/
theorem whole_handedAt (s : Stream) (now : Nat) (hsound : t.reader.Sound) :
    Whole (s.handedAt now t) := by
  unfold handedAt
  split
  · exact Reader.whole_readSome hsound _ _
  · exact .nil
  · exact .nil
  · exact .nil

/-- A step keeps the response tidy. -/
theorem Step.tidy (hstep : s.Step now r t after s') (htidy : s.Tidy) (hsound : t.reader.Sound) :
    s'.Tidy := by
  have hcontent (hongoing : s.IsOngoing) : Whole s.outlet.content := by
    have hwhole := htidy.whole
    rw [payload_of_isOngoing hongoing] at hwhole
    exact hwhole
  cases hstep with
  | idles hphase _ => exact tidy_finish (hcontent (isOngoing_of_reading hphase))
  | reads hphase hread hwrite =>
      have hbatch := whole_handedAt s now hsound
      rw [handedAt_eq hphase hread] at hbatch
      refine hwrite.tidy ?_
      rw [Outlet.content_write]
      exact (hcontent (isOngoing_of_reading hphase)).append hbatch
  | waits _ _ => exact htidy
  | fails hphase _ => exact (s.givesUp_fail _ _).tidy (hcontent (isOngoing_of_reading hphase))
  | flushes hphase hnext hflush hgoesOn =>
      refine hgoesOn.tidy ?_
      rw [Outlet.content_flush hflush]
      exact hcontent (isOngoing_of_flushing hphase hnext)
  | leaves hphase hflush =>
      have hpayload := payload_leaves ⟨r, t⟩ hphase hflush
      refine ⟨?_, ?_, ?_⟩
      · rw [hpayload]
        exact htidy.whole
      · rw [hpayload]
        have hsame := htidy.content
        rw [← content_of_flush hflush] at hsame
        exact hsame
      · intro _ hthere
        rcases hflush with hpassed | ⟨hgone, rfl⟩
        · have hempty := Outlet.buffer_flush hpassed
          exact hempty
        · have habandoned := abandoned_of_flush_eq_gone hgone
          change s.outlet.abandoned = false at hthere
          rw [habandoned] at hthere
          cases hthere
  | loses hphase hnext _ =>
      exact (s.givesUp_fail _ _).tidy (hcontent (isOngoing_of_flushing hphase hnext))
  | closes hphase _ =>
      exact (s.givesUp_afterTeardown _ _).tidy (hcontent (by simp [IsOngoing, hphase]))

/-- A stream reads once in a step if it is to read, and does not read otherwise. -/
theorem Step.reads_once (hstep : s.Step now r t after s') :
    (∃ deadline outcome read, s.phase = .reading deadline ∧
      t.readSome (deadline.any fun time => decide (time ≤ now)) = (outcome, read) ∧
      read.Becomes .none after.tunnel) ∨
    ((∀ deadline, s.phase ≠ .reading deadline) ∧ t.Becomes .none after.tunnel) := by
  cases hstep with
  | idles hphase hread => exact Or.inl ⟨_, _, _, hphase, hread, .refl⟩
  | reads hphase hread hwrite => exact Or.inl ⟨_, _, _, hphase, hread, hwrite.becomes⟩
  | waits hphase hread => exact Or.inl ⟨_, _, _, hphase, hread, .refl⟩
  | @fails deadline failure read hphase hread =>
      exact Or.inl ⟨_, _, _, hphase, hread, s.becomes_fail failure ⟨r, read⟩⟩
  | flushes hphase _ _ hgoesOn => exact Or.inr ⟨by simp [hphase], hgoesOn.becomes⟩
  | leaves hphase _ =>
      exact Or.inr ⟨by simp [hphase], Tunnel.Becomes.refl.leave .reader s.ticket⟩
  | loses hphase _ _ => exact Or.inr ⟨by simp [hphase], s.becomes_fail .clientGone ⟨r, t⟩⟩
  | @closes failure ticket result closed hphase hclose =>
      have hbecomes : t.Becomes .none (t.resumeClose ticket).2 := .resumeClose ticket
      rw [hclose] at hbecomes
      exact Or.inr ⟨by simp [hphase], hbecomes.trans (s.becomes_afterTeardown failure ⟨r, closed⟩)⟩

/-- What a step hands out is what the reader has no more. -/
theorem Step.unread (hstep : s.Step now r t after s') :
    s.handedAt now t ++ after.tunnel.reader.unread = t.reader.unread := by
  rcases hstep.reads_once with
    ⟨deadline, outcome, read, hphase, hread, hbecomes⟩ | ⟨hphase, hbecomes⟩
  · have hconserved := Reader.unread_readSome (!t.isOpen)
      (deadline.any fun time => decide (time ≤ now)) t.reader
    rw [handedAt_eq hphase hread, hbecomes.unread_eq id id, ← hconserved]
    cases hread
    rfl
  · have hnone : s.handedAt now t = [] := by
      unfold handedAt
      split
      next deadline heq => exact absurd heq (hphase deadline)
      · rfl
      · rfl
      · rfl
    rw [hnone, hbecomes.unread_eq id id, List.nil_append]

theorem Step.sound (hstep : s.Step now r t after s') (hsound : t.reader.Sound) :
    after.tunnel.reader.Sound := by
  have hbecomes : t.Becomes .all after.tunnel := hstep.becomes fun _ => trivial
  exact hbecomes.sound hsound

/-! ## The reader's seat -/

theorem readerSeat_afterTeardown (s : Stream) (failure : Failure) (around : Surroundings) :
    (s.afterTeardown failure around).1.tunnel.readerSeat =
      if (s.afterTeardown failure around).2.phase = .ended
      then around.tunnel.readerSeat.leave s.ticket else around.tunnel.readerSeat := by
  unfold afterTeardown
  split <;> rfl

/-- A stream that fails gives its seat back, or keeps it until the close is over. -/
theorem readerSeat_fail (s : Stream) (failure : Failure) (around : Surroundings) :
    (s.fail failure around).1.tunnel.readerSeat =
      if (s.fail failure around).2.phase = .ended
      then around.tunnel.readerSeat.leave s.ticket else around.tunnel.readerSeat := by
  have hclose := around.tunnel.seat_reader_close
  rw [fail_eq]
  cases around.tunnel.close.1 with
  | done result =>
      have hafter := s.readerSeat_afterTeardown failure
        ⟨around.registry.erase around.tunnel.identity.text, around.tunnel.close.2⟩
      exact hafter.trans (by rw [show around.tunnel.close.2.readerSeat = _ from hclose]; rfl)
  | waiting ticket => exact hclose

theorem GoesOn.phase_ne_ended {around : Surroundings} (hgoesOn : s.GoesOn around after s') :
    s'.phase ≠ .ended := by
  rcases hgoesOn.stream with rfl | ⟨deadline, rfl⟩ | rfl | rfl <;> simp [finish]

theorem GoesOn.readerSeat {around : Surroundings} (hgoesOn : s.GoesOn around after s') :
    after.tunnel.readerSeat = around.tunnel.readerSeat := by
  rcases hgoesOn.tunnel with hsame | hlooked
  · rw [hsame]
  · rw [hlooked]
    exact Tunnel.sameButReader_available.seat_eq .reader

/-- A stream keeps the reader's seat until it ends, and gives it back then. -/
theorem Step.readerSeat (hstep : s.Step now r t after s') :
    after.tunnel.readerSeat =
      if s'.phase = .ended then t.readerSeat.leave s.ticket else t.readerSeat := by
  cases hstep with
  | idles _ hread => exact (Tunnel.sameButReader_of_readSome hread).seat_eq .reader
  | reads _ hread hwrite =>
      rw [if_neg hwrite.phase_ne_ended, hwrite.readerSeat]
      exact (Tunnel.sameButReader_of_readSome hread).seat_eq .reader
  | waits hphase hread =>
      rw [if_neg (by simp [hphase])]
      exact (Tunnel.sameButReader_of_readSome hread).seat_eq .reader
  | @fails deadline failure read _ hread =>
      have hseat : read.readerSeat = t.readerSeat :=
        (Tunnel.sameButReader_of_readSome hread).seat_eq .reader
      rw [← hseat]
      exact s.readerSeat_fail failure ⟨r, read⟩
  | flushes _ _ _ hgoesOn =>
      rw [if_neg hgoesOn.phase_ne_ended]
      exact hgoesOn.readerSeat
  | leaves _ _ => rfl
  | loses _ _ _ => exact s.readerSeat_fail .clientGone ⟨r, t⟩
  | @closes failure ticket result closed _ hclose =>
      have hseat : closed.readerSeat = t.readerSeat := by
        have hresumed := t.seat_reader_resumeClose ticket
        rw [hclose] at hresumed
        exact hresumed
      rw [← hseat]
      exact s.readerSeat_afterTeardown failure ⟨r, closed⟩

/-- A stream that has ended does not go on. -/
theorem Step.phase_ne_ended (hstep : s.Step now r t after s') : s.phase ≠ .ended := by
  cases hstep with
  | idles hphase _ | reads hphase _ _ | waits hphase _ | fails hphase _ | flushes hphase _ _ _
  | leaves hphase _ | loses hphase _ _ | closes hphase _ => simp [hphase]

theorem GivesUp.place (hgivesUp : s.GivesUp s') : s'.tunnel = s.tunnel ∧ s'.ticket = s.ticket := by
  cases hgivesUp <;> exact ⟨rfl, rfl⟩

theorem GoesOn.place {around : Surroundings} (hgoesOn : s.GoesOn around after s') :
    s'.tunnel = s.tunnel ∧ s'.ticket = s.ticket := by
  rcases hgoesOn.stream with rfl | ⟨deadline, rfl⟩ | rfl | rfl <;> exact ⟨rfl, rfl⟩

/-- A stream stays with its tunnel and its ticket. -/
theorem Step.place (hstep : s.Step now r t after s') :
    s'.tunnel = s.tunnel ∧ s'.ticket = s.ticket := by
  cases hstep with
  | idles _ _ => exact ⟨rfl, rfl⟩
  | reads _ _ hwrite => exact hwrite.place
  | waits _ _ => exact ⟨rfl, rfl⟩
  | fails _ _ => exact (s.givesUp_fail _ _).place
  | flushes _ _ _ hgoesOn => exact hgoesOn.place
  | leaves _ _ => exact ⟨rfl, rfl⟩
  | loses _ _ _ => exact (s.givesUp_fail _ _).place
  | closes _ _ => exact (s.givesUp_afterTeardown _ _).place

end

end Stream

end LongPollTunnel

import LongPollTunnel.Proofs.Delivering

/-! # How a response ends

A stream copies batches to its response until a read gives it an empty one, another reader
waits, or something fails. From then on it only has to pass on what it holds, and after a
failure to take the tunnel down before that. Main statement: a response that has ended stopped
copying once, for one of these reasons, and its body is the batches and what the reason adds to
them; a client that sees the end of a response that failed finds the tunnel gone. A response
that has not ended is held up by its client, its source or the shutdown of the sink only.
-/

namespace LongPollTunnel

namespace Outlet

variable {o after : Outlet}

/-- Once a batch was written the response has something in it. -/
theorem hasWritten_write {bytes : List UInt8} (hsome : bytes ≠ []) :
    (o.write bytes).hasWritten = true := by
  simp [hasWritten, write, hsome]

/-- A flush changes nothing but where the written bytes are. -/
theorem kept_of_flush (hflush : o.flush = .passed after) :
    after.hasWritten = o.hasWritten ∧ after.finished = o.finished ∧
      after.abandoned = o.abandoned := by
  unfold flush at hflush
  split at hflush
  · cases hflush
    exact ⟨rfl, rfl, rfl⟩
  next hsome =>
    split at hflush
    · cases hflush
    · split at hflush
      · cases hflush
        refine ⟨?_, rfl, rfl⟩
        simp [hasWritten, hsome]
      · cases hflush

/-- A flush has to wait for the client once enough chunks wait for it. -/
theorem capacity_le_of_flush (hfull : o.flush = .full) : o.taken + capacity ≤ o.chunks.length := by
  unfold flush at hfull
  split at hfull
  · cases hfull
  · split at hfull
    · cases hfull
    · split at hfull
      · cases hfull
      · unfold capacity at *
        omega

end Outlet

/-- A close that waits does so for the shutdown of the sink. -/
theorem Tunnel.shutdown?_of_resumeClose {t after : Tunnel} {ticket ticket' : Nat}
    (hclose : t.resumeClose ticket = (.waiting ticket', after)) : t.shutdown? = none := by
  unfold resumeClose at hclose
  split at hclose
  · cases hclose
  next hnone => exact hnone

namespace Stream

/-- Why a stream stops copying. -/
inductive Ending where
  /-- A read gave an empty batch. -/
  | idle
  /-- Something was written, and another reader waits. -/
  | yielded
  | failed (failure : Failure)
  deriving DecidableEq, Repr

/-- What such an ending writes behind the batches: the terminating instruction, unless there is
no batch and the failure is another than that the tunnel is closed. -/
def Ending.suffix (way : Ending) (batches : List (List UInt8)) : List UInt8 :=
  match way with
  | .idle | .yielded => Instruction.terminator
  | .failed failure =>
    if failure.isClosed || !batches.isEmpty then Instruction.terminator else []

/-- A stream that leaves right after it wrote a batch, or passed it on, does so for another
reader. -/
def yielded? (s' : Stream) : Option Ending :=
  if s'.phase = .flushing .leave then some .yielded else none

/-- Why the stream stops copying in a step, if it does. -/
def ending? (s s' : Stream) (now : Nat) (t : Tunnel) : Option Ending :=
  match s.phase with
  | .reading deadline =>
    match (t.readSome (deadline.any fun time => decide (time ≤ now))).1 with
    | .done [] => some .idle
    | .done (_ :: _) => s'.yielded?
    | .failed failure => some (.failed failure)
    | .waiting => none
  | .flushing next =>
    if next = .leave then none
    else
      match s.outlet.flush with
      | .gone => some (.failed .clientGone)
      | .passed _ | .full => s'.yielded?
  | .closing _ _ | .ended => none

/-- What a stream has to wait for. -/
inductive Waits (s : Stream) (now : Nat) (t : Tunnel) : Prop where
  | client {next : Next} (hphase : s.phase = .flushing next)
      (hfull : s.outlet.taken + Outlet.capacity ≤ s.outlet.chunks.length) : Waits s now t
  | source {deadline : Option Nat} (hphase : s.phase = .reading deadline)
      (hopen : t.isOpen = true) (hempty : t.reader.source = [])
      (hearly : ∀ time, deadline = some time → now < time) : Waits s now t
  | shutdown {failure : Failure} {ticket : Nat} (hphase : s.phase = .closing failure ticket)
      (hshutdown : t.shutdown? = none) : Waits s now t

/-- How far a stream got that was handed out these batches, and why it stopped copying. -/
inductive Course (s : Stream) (batches : List (List UInt8)) : List Ending → Prop where
  | copying (hcopying : s.IsCopying) (hcontent : s.outlet.content = batches.flatten)
      (hwritten : s.outlet.hasWritten = !batches.isEmpty)
      (hflushing : ∀ next, s.phase = .flushing next → batches ≠ [])
      (hfinished : s.outlet.finished = false) : Course s batches []
  | closing {failure : Failure} {ticket : Nat} (hphase : s.phase = .closing failure ticket)
      (hcontent : s.outlet.content = batches.flatten)
      (hwritten : s.outlet.hasWritten = !batches.isEmpty)
      (hfinished : s.outlet.finished = false) : Course s batches [.failed failure]
  | leaving {way : Ending} (hphase : s.phase = .flushing .leave)
      (hcontent : s.outlet.content = batches.flatten ++ way.suffix batches)
      (hyielded : way = .yielded → batches ≠ [])
      (hfinished : s.outlet.finished = false) : Course s batches [way]
  | ended {way : Ending} (hphase : s.phase = .ended)
      (hchunks : s.outlet.chunks.flatten = batches.flatten ++ way.suffix batches)
      (hyielded : way = .yielded → batches ≠ [])
      (hfinished : s.outlet.finished = true) : Course s batches [way]

section

variable {s s' : Stream} {batches : List (List UInt8)} {endings : List Ending} {now : Nat}
  {r : Registry} {t : Tunnel} {around after : Surroundings}

theorem Course.start (now number ticket : Nat) (t : Tunnel) :
    (Stream.start now number ticket t).Course [] [] :=
  .copying (Or.inl ⟨_, rfl⟩) rfl rfl (by simp [Stream.start]) rfl

/-- Whatever the client does, the stream got as far. -/
theorem Course.sameButClient (hcourse : s.Course batches endings) (hsame : s.SameButClient s') :
    s'.Course batches endings := by
  have hwritten : s'.outlet.hasWritten = s.outlet.hasWritten := by
    rw [Outlet.hasWritten, Outlet.hasWritten, hsame.chunks, hsame.buffer]
  cases hcourse with
  | copying hcopying hcontent hbefore hflushing hfinished =>
      refine .copying ?_ (hsame.content.trans hcontent) (hwritten.trans hbefore) ?_
        (hsame.finished.trans hfinished)
      · rw [IsCopying, hsame.phase]
        exact hcopying
      · rw [hsame.phase]
        exact hflushing
  | closing hphase hcontent hbefore hfinished =>
      exact .closing (hsame.phase.trans hphase) (hsame.content.trans hcontent)
        (hwritten.trans hbefore) (hsame.finished.trans hfinished)
  | leaving hphase hcontent hyielded hfinished =>
      exact .leaving (hsame.phase.trans hphase) (hsame.content.trans hcontent) hyielded
        (hsame.finished.trans hfinished)
  | ended hphase hchunks hyielded hfinished =>
      refine .ended (hsame.phase.trans hphase) ?_ hyielded (hsame.finished.trans hfinished)
      rw [hsame.chunks]
      exact hchunks

/-! ## Parts of a step -/

/-- A stream that is done with its batches writes the terminating instruction. -/
theorem Course.finish {way : Ending} (hcontent : s.outlet.content = batches.flatten)
    (hway : way.suffix batches = Instruction.terminator) (hyielded : way = .yielded → batches ≠ [])
    (hfinished : s.outlet.finished = false) : s.finish.Course batches [way] := by
  refine .leaving rfl ?_ hyielded hfinished
  rw [hway, ← hcontent]
  exact s.outlet.content_write _

/-- Reading on and giving way keep the course of a response. -/
theorem GoesOn.course (hgoesOn : s.GoesOn around after s')
    (hcontent : s.outlet.content = batches.flatten) (hwritten : s.outlet.hasWritten = true)
    (hsome : batches ≠ []) (hfinished : s.outlet.finished = false) :
    s'.Course batches s'.yielded?.toList := by
  have hwritten' : s.outlet.hasWritten = !batches.isEmpty := by
    rw [hwritten, List.isEmpty_eq_false_iff.mpr hsome]
    rfl
  rcases hgoesOn.stream with rfl | ⟨deadline, rfl⟩ | rfl | rfl
  · exact .finish hcontent rfl (fun _ => hsome) hfinished
  · exact .copying (Or.inl ⟨deadline, rfl⟩) hcontent hwritten' (fun _ _ => hsome) hfinished
  · exact .copying (Or.inr ⟨.lookAhead, rfl, by decide⟩) hcontent hwritten' (fun _ _ => hsome)
      hfinished
  · exact .copying (Or.inr ⟨.yield, rfl, by decide⟩) hcontent hwritten' (fun _ _ => hsome)
      hfinished

theorem Course.afterTeardown (failure : Failure) (around : Surroundings)
    (hcontent : s.outlet.content = batches.flatten)
    (hwritten : s.outlet.hasWritten = !batches.isEmpty) (hfinished : s.outlet.finished = false) :
    (s.afterTeardown failure around).2.Course batches [.failed failure] := by
  unfold Stream.afterTeardown
  rw [hwritten]
  split
  next htells => exact .finish hcontent (if_pos htells) nofun hfinished
  next hsilent =>
    -- there is nothing in the response, and nothing comes into it any more
    have hnone : s.outlet.hasWritten = false := by
      rw [hwritten]
      exact (Bool.or_eq_false_iff.mp (Bool.eq_false_iff.mpr hsilent)).2
    obtain ⟨hnil, hbuffer⟩ := content_eq_nil_of_not_hasWritten hnone
    rw [Outlet.content, hbuffer, List.append_nil] at hnil
    refine .ended rfl ?_ nofun rfl
    rw [← hcontent, Outlet.content, hbuffer, List.append_nil]
    exact (List.append_nil _).symm.trans (congrArg _ (if_neg hsilent).symm)

/-- A failure ends the course, whether the close waits or not. -/
theorem Course.fail (failure : Failure) (around : Surroundings)
    (hcontent : s.outlet.content = batches.flatten)
    (hwritten : s.outlet.hasWritten = !batches.isEmpty) (hfinished : s.outlet.finished = false) :
    (s.fail failure around).2.Course batches [.failed failure] := by
  rw [fail_eq]
  cases around.tunnel.close.1 with
  | done result => exact .afterTeardown failure _ hcontent hwritten hfinished
  | waiting ticket => exact .closing rfl hcontent hwritten hfinished

/-- As long as a stream copies it has written its batches and nothing else. -/
theorem Course.of_isCopying (hcourse : s.Course batches endings) (hcopying : s.IsCopying) :
    s.outlet.content = batches.flatten ∧ s.outlet.hasWritten = !batches.isEmpty ∧
      (∀ next, s.phase = .flushing next → batches ≠ []) ∧ s.outlet.finished = false ∧
      endings = [] := by
  cases hcourse with
  | copying _ hcontent hwritten hflushing hfinished =>
      exact ⟨hcontent, hwritten, hflushing, hfinished, rfl⟩
  | closing hphase _ _ _ => exact absurd hphase (hcopying.not_closing _ _)
  | leaving hphase _ _ _ => exact absurd hphase hcopying.not_leaving
  | ended hphase _ _ _ => exact absurd hphase hcopying.not_ended

/-- A step goes on with the course, in which the batch and the ending are entered. -/
theorem Course.step (hcourse : s.Course batches endings) (hstep : s.Step now r t after s')
    (hthere : s.outlet.abandoned = false) :
    s'.Course (batches ++ batchOf (s.handedAt now t))
      (endings ++ (s.ending? s' now t).toList) := by
  cases hstep with
  | @idles deadline read hphase hread =>
      obtain ⟨hcontent, _, _, hfinished, rfl⟩ := hcourse.of_isCopying (Or.inl ⟨deadline, hphase⟩)
      have hending : s.ending? s.finish now t = some .idle := by simp [ending?, hphase, hread]
      rw [handedAt_eq hphase hread, hending]
      rw [← List.append_nil batches] at hcontent
      exact .finish hcontent rfl nofun hfinished
  | @reads deadline batch read _ _ hphase hread hwrite hsome =>
      obtain ⟨hcontent, _, _, hfinished, rfl⟩ := hcourse.of_isCopying (Or.inl ⟨deadline, hphase⟩)
      have hending : s.ending? s' now t = s'.yielded? := by
        obtain ⟨byte, tail, rfl⟩ := List.exists_cons_of_ne_nil hsome
        simp only [ending?, hphase, hread]
      rw [handedAt_eq hphase hread, hending, Reader.handed, batchOf_of_ne_nil hsome]
      refine hwrite.course ?_ (Outlet.hasWritten_write hsome) (by simp) hfinished
      rw [Outlet.content_write, hcontent, List.flatten_append, List.flatten_singleton]
  | @waits deadline read hphase hread =>
      have hending : s.ending? s now t = none := by simp [ending?, hphase, hread]
      rw [handedAt_eq hphase hread, hending]
      simpa [Reader.handed] using hcourse
  | @fails deadline failure read hphase hread =>
      obtain ⟨hcontent, hwritten, _, hfinished, rfl⟩ :=
        hcourse.of_isCopying (Or.inl ⟨deadline, hphase⟩)
      have hending : s.ending? (s.fail failure ⟨r, read⟩).2 now t = some (.failed failure) := by
        simp [ending?, hphase, hread]
      rw [handedAt_eq hphase hread, hending]
      rw [← List.append_nil batches] at hcontent hwritten
      exact .fail failure _ hcontent hwritten hfinished
  | @flushes next outlet _ _ hphase hnext hflush hgoesOn =>
      obtain ⟨hcontent, hwritten, hflushing, hfinished, rfl⟩ :=
        hcourse.of_isCopying (Or.inr ⟨next, hphase, hnext⟩)
      have hsome := hflushing next hphase
      have hending : s.ending? s' now t = s'.yielded? := by
        simp [ending?, hphase, hnext, hflush]
      obtain ⟨hkept, hsame, _⟩ := Outlet.kept_of_flush hflush
      rw [List.isEmpty_eq_false_iff.mpr hsome] at hwritten
      rw [handedAt_of_flushing hphase, hending, batchOf_nil, List.append_nil,
        List.nil_append]
      exact hgoesOn.course ((Outlet.content_flush hflush).trans hcontent) (hkept.trans hwritten)
        hsome (hsame.trans hfinished)
  | @leaves outlet hphase hflush =>
      have hending : s.ending? ({ s with outlet }.leave ⟨r, t⟩).2 now t = none := by
        simp [ending?, hphase]
      rw [handedAt_of_flushing hphase, hending, batchOf_nil, List.append_nil,
        Option.toList_none, List.append_nil]
      rcases hflush with hpassed | ⟨hgone, _⟩
      · cases hcourse with
        | copying hcopying _ _ _ _ => exact absurd hphase hcopying.not_leaving
        | closing heq _ _ _ | ended heq _ _ _ =>
            rw [hphase] at heq
            cases heq
        | leaving _ hcontent hyielded _ =>
            refine .ended rfl ?_ hyielded rfl
            rw [← hcontent, ← Outlet.content_flush hpassed, Outlet.content,
              Outlet.buffer_flush hpassed, List.append_nil]
            rfl
      · rw [abandoned_of_flush_eq_gone hgone] at hthere
        cases hthere
  | loses _ _ hgone =>
      rw [abandoned_of_flush_eq_gone hgone] at hthere
      cases hthere
  | @closes failure ticket result closed hphase hclose =>
      have hending : s.ending? (s.afterTeardown failure ⟨r, closed⟩).2 now t = none := by
        simp [ending?, hphase]
      have hnone : s.handedAt now t = [] := by simp [handedAt, hphase]
      rw [hnone, hending, batchOf_nil, List.append_nil, Option.toList_none,
        List.append_nil]
      cases hcourse with
      | copying hcopying _ _ _ _ => exact absurd hphase (hcopying.not_closing _ _)
      | leaving heq _ _ _ | ended heq _ _ _ =>
          rw [hphase] at heq
          cases heq
      | closing heq hcontent hwritten hfinished =>
          rw [hphase] at heq
          cases heq
          exact .afterTeardown failure _ hcontent hwritten hfinished

/-- A response that is finished has come to one ending, and ends as that one says. -/
theorem Course.of_finished (hcourse : s.Course batches endings)
    (hfinished : s.outlet.finished = true) :
    ∃ way : Ending, endings = [way] ∧
      s.outlet.chunks.flatten = batches.flatten ++ way.suffix batches ∧
      (way = .yielded → batches ≠ []) := by
  cases hcourse with
  | @ended way _ hchunks hyielded _ => exact ⟨way, rfl, hchunks, hyielded⟩
  | copying _ _ _ _ hongoing | closing _ _ _ hongoing | leaving _ _ _ hongoing =>
      rw [hfinished] at hongoing
      cases hongoing

theorem Course.finished_of_ended (hcourse : s.Course batches endings) (hphase : s.phase = .ended) :
    s.outlet.finished = true := by
  cases hcourse with
  | ended _ _ _ hfinished => exact hfinished
  | copying hcopying _ _ _ _ => exact absurd hphase hcopying.not_ended
  | closing heq _ _ _ | leaving heq _ _ _ =>
      rw [hphase] at heq
      cases heq

/-- Who waits for a close has failed. -/
theorem Course.not_closing (hcourse : s.Course batches endings)
    (hfailed : ∀ failure, .failed failure ∉ endings) (failure : Failure) (ticket : Nat) :
    s.phase ≠ .closing failure ticket := by
  cases hcourse with
  | copying hcopying _ _ _ _ => exact hcopying.not_closing failure ticket
  | closing _ _ _ _ => exact absurd (List.mem_singleton_self _) (hfailed _)
  | leaving hphase _ _ _ | ended hphase _ _ _ => simp [hphase]

/-! ## What an ending means -/

theorem GivesUp.abandoned (hgivesUp : s.GivesUp s') :
    s'.outlet.abandoned = s.outlet.abandoned := by
  cases hgivesUp <;> rfl

theorem GoesOn.abandoned (hgoesOn : s.GoesOn around after s') :
    s'.outlet.abandoned = s.outlet.abandoned := by
  rcases hgoesOn.stream with rfl | ⟨deadline, rfl⟩ | rfl | rfl <;> rfl

/-- Whether the client is gone is not for the stream to change. -/
theorem Step.abandoned (hstep : s.Step now r t after s') :
    s'.outlet.abandoned = s.outlet.abandoned := by
  cases hstep with
  | idles _ _ | waits _ _ => rfl
  | reads _ _ hwrite _ => exact hwrite.abandoned
  | flushes _ _ hflush hgoesOn =>
      exact hgoesOn.abandoned.trans (Outlet.kept_of_flush hflush).2.2
  | leaves _ hflush =>
      rcases hflush with hpassed | ⟨_, rfl⟩
      · exact (Outlet.kept_of_flush hpassed).2.2
      · rfl
  | fails _ _ | loses _ _ _ => exact (s.givesUp_fail _ _).abandoned
  | closes _ _ => exact (s.givesUp_afterTeardown _ _).abandoned

/-- A stream reads under a deadline only where reads have one. -/
theorem Step.timed (hstep : s.Step now r t after s') (htimed : s.IsTimed t) :
    s'.IsTimed after.tunnel := by
  cases hstep with
  | idles _ _ => exact isTimed_of_phase (by simp [finish]) _
  | reads _ _ hwrite _ => exact hwrite.timed
  | @waits deadline read _ hread =>
      have hread := congrArg Prod.snd hread
      have hkept : read.reader.idleTimeout = t.reader.idleTimeout := by
        rw [← show _ = read from hread]
        exact t.reader.idleTimeout_readSome _ _
      intro time hphase
      rw [hkept]
      exact htimed time hphase
  | flushes _ _ _ hgoesOn => exact hgoesOn.timed
  | leaves _ _ => exact isTimed_of_phase (by simp [leave]) _
  | fails _ _ | loses _ _ _ => exact isTimed_of_phase (s.givesUp_fail _ _).not_reading _
  | closes _ _ => exact isTimed_of_phase (s.givesUp_afterTeardown _ _).not_reading _

/-- Giving way leads to the last flush. -/
theorem yielded?_eq_some {way : Ending} (hsome : s'.yielded? = some way) :
    way = .yielded ∧ s'.phase = .flushing .leave := by
  obtain ⟨hleave, hway⟩ := Option.ite_none_right_eq_some.mp hsome
  exact ⟨(Option.some.inj hway).symm, hleave⟩

/-- Why a stream stops copying, by what it finds. -/
theorem ending?_cases {way : Ending} (hending : s.ending? s' now t = some way) :
    (way = .idle ∧ ∃ deadline, s.phase = .reading deadline ∧
      (t.readSome (deadline.any fun time => decide (time ≤ now))).1 = .done []) ∨
    (way = .yielded ∧ s'.phase = .flushing .leave) ∨
    ∃ failure, way = .failed failure ∧ s.detectsFailure now t := by
  unfold ending? at hending
  split at hending
  next deadline hphase =>
    split at hending
    next hread =>
      cases hending
      exact Or.inl ⟨rfl, deadline, hphase, hread⟩
    next => exact Or.inr (Or.inl (yielded?_eq_some hending))
    next failure hread =>
      cases hending
      exact Or.inr (Or.inr ⟨failure, rfl, Or.inl ⟨deadline, failure, hphase, hread⟩⟩)
    next => cases hending
  next next hphase =>
    obtain ⟨hnext, hrest⟩ := Option.ite_none_left_eq_some.mp hending
    split at hrest
    next hgone =>
      cases hrest
      exact Or.inr (Or.inr ⟨.clientGone, rfl, Or.inr ⟨next, hphase, hnext, hgone⟩⟩)
    next => exact Or.inr (Or.inl (yielded?_eq_some hrest))
    next => exact Or.inr (Or.inl (yielded?_eq_some hrest))
  · cases hending
  · cases hending

/-- Only a read whose time is up gives an empty batch. -/
theorem idleTimeout_of_idle (hending : s.ending? s' now t = some .idle) (hsound : t.reader.Sound)
    (htimed : s.IsTimed t) : t.reader.idleTimeout ≠ none := by
  rcases ending?_cases hending with ⟨_, deadline, hphase, hread⟩ | ⟨hway, _⟩ | ⟨_, hway, _⟩
  · have hexpired := Reader.expired_of_readSome hsound hread
    obtain ⟨time, rfl, _⟩ := Option.any_eq_true _ _ |>.mp hexpired
    exact htimed time hphase
  · cases hway
  · cases hway

/-- A stream that ends its response for the sake of another reader has one waiting. -/
theorem Step.hasQueuedReader (hstep : s.Step now r t after s')
    (hending : s.ending? s' now t = some .yielded) : t.hasQueuedReader = true := by
  have hleave : s'.phase = .flushing .leave := by
    rcases ending?_cases hending with ⟨hway, _⟩ | ⟨_, hleave⟩ | ⟨_, hway, _⟩
    · cases hway
    · exact hleave
    · cases hway
  -- a step of a stream lets nobody into the queue and nobody out of it
  have hbecomes : t.Becomes ⟨True, False, False, False, False⟩ after.tunnel :=
    hstep.becomes fun _ => trivial
  have hqueued : after.tunnel.hasQueuedReader = true := by
    cases hstep with
    | reads _ _ hwrite _ => exact hwrite.yields hleave
    | flushes _ _ _ hgoesOn => exact hgoesOn.yields hleave
    | idles hphase hread | waits hphase hread | fails hphase hread =>
        simp [ending?, hphase, hread] at hending
    | leaves hphase _ | closes hphase _ => simp [ending?, hphase] at hending
    | loses hphase hnext hgone => simp [ending?, hphase, hnext, hgone] at hending
  rw [← hqueued, Tunnel.hasQueuedReader, Tunnel.hasQueuedReader, hbecomes.queuedReaders_eq id id]

/-- A failure that ends a response is one that the stream has come upon. -/
theorem detectsFailure_of_failed {failure : Failure}
    (hending : s.ending? s' now t = some (.failed failure)) : s.detectsFailure now t := by
  rcases ending?_cases hending with ⟨hway, _⟩ | ⟨hway, _⟩ | ⟨_, _, hdetects⟩
  · cases hway
  · cases hway
  · exact hdetects

/-- A failure that is detected is why the stream stops copying. -/
theorem ending?_of_detectsFailure (s' : Stream) (hdetects : s.detectsFailure now t) :
    ∃ failure, s.ending? s' now t = some (.failed failure) := by
  rcases hdetects with ⟨deadline, failure, hphase, hread⟩ | ⟨next, hphase, hnext, hgone⟩
  · exact ⟨failure, by simp only [ending?, hphase, hread]⟩
  · exact ⟨.clientGone, by simp [ending?, hphase, hnext, hgone]⟩

/-- A stream that cannot go on has ended, or waits for its client, its source or the shutdown of
the sink. -/
theorem waits_of_step (hnone : s.step now ⟨r, t⟩ = none) : s.phase = .ended ∨ s.Waits now t := by
  unfold step at hnone
  split at hnone
  next deadline hphase =>
    split at hnone
    · cases hnone
    · cases hnone
    · cases hnone
    next read hread =>
      split at hnone
      next hempty =>
        obtain ⟨hopen, hearly⟩ := Reader.intact_of_readSome (congrArg Prod.fst hread)
        refine Or.inr (.source hphase (by simpa using hopen) (List.isEmpty_iff.mp hempty) ?_)
        rintro time rfl
        exact Nat.lt_of_not_le (of_decide_eq_false hearly)
      · cases hnone
  next next hphase =>
    split at hnone
    · cases hnone
    · cases hnone
    next hfull => exact Or.inr (.client hphase (Outlet.capacity_le_of_flush hfull))
  next failure ticket hphase =>
    split at hnone
    · cases hnone
    next _ _ hclose => exact Or.inr (.shutdown hphase (Tunnel.shutdown?_of_resumeClose hclose))
  next hphase => exact Or.inl hphase

/-- Going on closes nothing. -/
theorem GoesOn.isOpen (hgoesOn : s.GoesOn around after s') :
    after.tunnel.isOpen = around.tunnel.isOpen := by
  rcases hgoesOn.tunnel with hsame | hlooked
  · rw [hsame]
  · rw [hlooked]
    rfl

/-- Without a failure, a step leaves the tunnel as open and as registered as it was. -/
theorem Step.unchanged (hstep : s.Step now r t after s') (hintact : ¬ s.detectsFailure now t)
    (hclosing : ∀ failure ticket, s.phase ≠ .closing failure ticket) :
    after.registry = r ∧ after.tunnel.isOpen = t.isOpen := by
  cases hstep with
  | idles _ hread | waits _ hread =>
      exact ⟨rfl, (Tunnel.sameButReader_of_readSome hread).isOpen_eq⟩
  | reads _ hread hwrite _ =>
      exact ⟨hwrite.registry,
        hwrite.isOpen.trans (Tunnel.sameButReader_of_readSome hread).isOpen_eq⟩
  | flushes _ _ _ hgoesOn => exact ⟨hgoesOn.registry, hgoesOn.isOpen⟩
  | leaves _ _ => exact ⟨rfl, Tunnel.isOpen_leave _ _ _⟩
  | fails hphase hread =>
      exact absurd (Or.inl ⟨_, _, hphase, congrArg Prod.fst hread⟩) hintact
  | loses hphase hnext hgone => exact absurd (Or.inr ⟨_, hphase, hnext, hgone⟩) hintact
  | closes hphase _ => exact absurd hphase (hclosing _ _)

end

end Stream

namespace Hub

variable {h next : Hub} {log : List Record} {j : Nat} {move : Move}

/-! ## Streams and their tunnels -/

/-- The tunnels of streams are there, and a stream that reads with a deadline has it from its
tunnel. -/
def HasTimedStreams (h : Hub) : Prop :=
  ∀ (j : Nat) (s : Stream), h.streams[j]? = some s →
    ∃ t, h.tunnels[s.tunnel]? = some t ∧ s.IsTimed t

theorem HasTimedStreams.after? (htimed : h.HasTimedStreams) (hmove : h.after? move = some next) :
    next.HasTimedStreams := by
  intro j s' hs'
  cases streamMove_after? hmove j with
  | same _ hsame _ =>
      obtain ⟨s, hs, hlike⟩ := hsame s' hs'
      obtain ⟨t, ht, hbefore⟩ := htimed j s hs
      obtain ⟨t', ht', hbecomes⟩ := becomes_after? hmove ht
      refine ⟨t', by rw [hlike.tunnel, ht'], fun time hphase => ?_⟩
      rw [hlike.phase] at hphase
      rw [hbecomes.idleTimeout_eq]
      exact hbefore time hphase
  | @start number ticket t _ _ ht hs =>
      rw [hs] at hs'
      cases hs'
      obtain ⟨t', ht', hbecomes⟩ := becomes_after? hmove ht
      refine ⟨t', ht', fun time hphase => ?_⟩
      rw [hbecomes.idleTimeout_eq]
      have hstart : (Stream.start h.clock number ticket t).IsTimed t :=
        Stream.isTimed_of_deadline rfl
      exact hstart time hphase
  | @step s found t after _ hs ht hstep hfound ht' _ _ =>
      rw [hfound] at hs'
      cases hs'
      obtain ⟨t₀, ht₀, hbefore⟩ := htimed j s hs
      rw [ht] at ht₀
      cases ht₀
      exact ⟨after.tunnel, by rw [hstep.place.1, ht'], hstep.timed hbefore⟩

/-- In every run only tunnels with an idle timeout give their streams deadlines. -/
theorem hasTimedStreams_of_reaches (hreaches : Reaches {} h) : h.HasTimedStreams := by
  refine hreaches.invariant ?_ fun _ _ _ htimed hmove => htimed.after? hmove
  intro j s hs
  cases hs

/-! ## Along a run -/

namespace Record

/-- Why the stream with this number stops copying in this move, if it does. -/
def ending? (r : Record) (j : Nat) : Option Stream.Ending := do
  let s ← r.stream? j
  let s' ← r.after.streams[j]?
  let t ← r.before.tunnels[s.tunnel]?
  s.ending? s' r.before.clock t

/-- The move leaves every tunnel as open and as registered as it was. -/
def LeavesAlone (r : Record) : Prop :=
  r.after.registry = r.before.registry ∧
    ∀ number, r.after.isOpenAt number = r.before.isOpenAt number

end Record

/-- Why the stream with this number stopped copying, each time it did, oldest first. -/
def endings (log : List Record) (j : Nat) : List Stream.Ending :=
  log.filterMap (·.ending? j)

/-- The last move adds the ending that it brought. -/
theorem endings_snoc (log : List Record) (r : Record) (j : Nat) :
    endings (log ++ [r]) j = endings log j ++ (r.ending? j).toList := by
  rw [endings, List.filterMap_append]
  cases hending : r.ending? j <;> simp [endings, hending]

theorem ending?_of_stream {s s' : Stream} {t : Tunnel} (hs : h.streams[j]? = some s)
    (ht : h.tunnels[s.tunnel]? = some t) (hs' : next.streams[j]? = some s') :
    Record.ending? ⟨h, .go (.stream j), next⟩ j = s.ending? s' h.clock t := by
  simp [Record.ending?, Record.stream?, hs, hs', ht]

/-- What the records have to say of the stream with this number, which has become `s`. -/
structure Tells (log : List Record) (j : Nat) (s : Stream) : Prop where
  course : s.outlet.abandoned = false → s.Course (batchesOf log j) (endings log j)
  alone : s.outlet.abandoned = false → (∀ failure, .failed failure ∉ endings log j) →
    ∀ r ∈ log, r.stream? j ≠ none → r.LeavesAlone
  place : ∀ r ∈ log, ∀ before, r.stream? j = some before → before.tunnel = s.tunnel

namespace Tells

variable {s s' : Stream}

/-- Records of other moves have nothing to say of a stream that has just been started. -/
theorem start (hsilent : ∀ r ∈ log, r.stream? j = none) (now number ticket : Nat) (t : Tunnel) :
    Tells log j (Stream.start now number ticket t) := by
  have hbatches : batchesOf log j = [] :=
    List.flatMap_eq_nil_iff.mpr fun r hr => by simp [Record.batches, hsilent r hr]
  have hendings : endings log j = [] :=
    List.filterMap_eq_nil_iff.mpr fun r hr => by simp [Record.ending?, hsilent r hr]
  refine ⟨fun _ => ?_, fun _ _ r hr hgoes => absurd (hsilent r hr) hgoes, fun r hr => ?_⟩
  · rw [hbatches, hendings]
    exact .start now number ticket t
  · simp [hsilent r hr]

theorem sameButClient (htells : Tells log j s) (hsame : s.SameButClient s') {r : Record}
    (hnone : r.stream? j = none) : Tells (log ++ [r]) j s' := by
  have hbatches : batchesOf (log ++ [r]) j = batchesOf log j := by
    simp [batchesOf_snoc, Record.batches, hnone]
  have hendings : endings (log ++ [r]) j = endings log j := by
    simp [endings_snoc, Record.ending?, hnone]
  refine ⟨fun hthere => ?_, fun hthere hfailed => ?_, ?_⟩
  · rw [hbatches, hendings]
    exact (htells.course (hsame.abandoned hthere)).sameButClient hsame
  · rw [hendings] at hfailed
    refine List.forall_mem_append.mpr ⟨htells.alone (hsame.abandoned hthere) hfailed, ?_⟩
    exact List.forall_mem_singleton.mpr fun hgoes => absurd hnone hgoes
  · rw [hsame.tunnel]
    exact List.forall_mem_append.mpr ⟨htells.place, List.forall_mem_singleton.mpr (by simp [hnone])⟩

/-- A move of the stream itself adds its batch and its ending to the course. -/
theorem step (htells : Tells log j s) {t : Tunnel} {after : Stream.Surroundings}
    (hs : h.streams[j]? = some s) (ht : h.tunnels[s.tunnel]? = some t)
    (hstep : s.Step h.clock h.registry t after s') (hs' : next.streams[j]? = some s')
    (ht' : next.tunnels[s.tunnel]? = some after.tunnel)
    (hregistry : next.registry = after.registry)
    (hothers : ∀ number, s.tunnel ≠ number → next.tunnels[number]? = h.tunnels[number]?) :
    Tells (log ++ [⟨h, .go (.stream j), next⟩]) j s' := by
  have hentered := ending?_of_stream hs ht hs'
  refine ⟨fun hthere => ?_, fun hthere hfailed => ?_, ?_⟩
  · rw [hstep.abandoned] at hthere
    rw [batchesOf_snoc, endings_snoc, batches_of_stream hs ht, hentered]
    exact (htells.course hthere).step hstep hthere
  · rw [hstep.abandoned] at hthere
    rw [endings_snoc, hentered] at hfailed
    have hbefore : ∀ failure, .failed failure ∉ endings log j :=
      fun failure hmem => hfailed failure (List.mem_append_left _ hmem)
    have hintact : ¬ s.detectsFailure h.clock t := by
      intro hdetects
      obtain ⟨failure, hending⟩ := Stream.ending?_of_detectsFailure s' hdetects
      exact hfailed failure (List.mem_append_right _ (by simp [hending]))
    obtain ⟨hsame, hopen⟩ := hstep.unchanged hintact ((htells.course hthere).not_closing hbefore)
    refine List.forall_mem_append.mpr ⟨htells.alone hthere hbefore, ?_⟩
    exact List.forall_mem_singleton.mpr fun _ =>
      unchanged_of_step ht ht' hopen (hregistry.trans hsame) hothers
  · rw [hstep.place.1]
    refine List.forall_mem_append.mpr ⟨htells.place, ?_⟩
    refine List.forall_mem_singleton.mpr fun before hbefore => ?_
    obtain ⟨_, hsame⟩ := stream?_eq_some hbefore
    rw [hs] at hsame
    cases hsame
    rfl

end Tells

/-- The records tell of a stream as soon as there is one. -/
structure IsTold (h : Hub) (log : List Record) (j : Nat) : Prop where
  present : ∀ s, h.streams[j]? = some s → Tells log j s
  absent : h.streams[j]? = none → ∀ r ∈ log, r.stream? j = none

/-- The step lemma. -/
theorem IsTold.after? (htold : h.IsTold log j) (hmove : h.after? move = some next) :
    next.IsTold (log ++ [⟨h, move, next⟩]) j := by
  cases streamMove_after? hmove j with
  | same hnone hsame habsent =>
      refine ⟨fun s' hs' => ?_, fun hgone => ?_⟩
      · obtain ⟨s, hs, hlike⟩ := hsame s' hs'
        exact (htold.present s hs).sameButClient hlike hnone
      · exact List.forall_mem_append.mpr
          ⟨htold.absent (habsent hgone), List.forall_mem_singleton.mpr hnone⟩
  | start hnone habsent ht hs =>
      refine ⟨fun s hs' => ?_, by simp [hs]⟩
      rw [hs] at hs'
      cases hs'
      exact .start (List.forall_mem_append.mpr
        ⟨htold.absent habsent, List.forall_mem_singleton.mpr hnone⟩) _ _ _ _
  | step hgo hs ht hstep hs' ht' hregistry hothers =>
      subst hgo
      refine ⟨fun found hfound => ?_, by simp [hs']⟩
      rw [hs'] at hfound
      cases hfound
      exact (htold.present _ hs).step hs ht hstep hs' ht' hregistry hothers

/-- The run lemma, by induction over the run. -/
theorem isTold_of_run (hrun : Run {} log h) (j : Nat) : h.IsTold log j := by
  induction hrun with
  | nil => exact ⟨nofun, fun _ _ hr => absurd hr List.not_mem_nil⟩
  | snoc _ hmove ih => exact ih.after? hmove

/-- A move in which a stream stops copying is one of its steps. -/
theorem exists_step_of_ending {r : Record} {way : Stream.Ending}
    (hmove : r.before.after? r.move = some r.after) (hending : r.ending? j = some way) :
    ∃ s s' t after, r.stream? j = some s ∧ r.before.tunnels[s.tunnel]? = some t ∧
      s.Step r.before.clock r.before.registry t after s' ∧
      s.ending? s' r.before.clock t = some way := by
  obtain ⟨s, hstream, hrest⟩ := exists_of_bind_eq_some hending
  obtain ⟨s', hs', hrest'⟩ := exists_of_bind_eq_some hrest
  obtain ⟨t, ht, hway⟩ := exists_of_bind_eq_some hrest'
  obtain ⟨hgo, hs⟩ := stream?_eq_some hstream
  rw [hgo] at hmove
  obtain ⟨s₀, s₀', t₀, after, hs₀, ht₀, hstep, hafter⟩ := streamStep_resumeStream hmove
  rw [hs] at hs₀
  cases hs₀
  rw [ht] at ht₀
  cases ht₀
  rw [hafter] at hs'
  cases (getElem?_set_of_getElem? hs).symm.trans hs'
  exact ⟨s, s', t, after, hstream, ht, hstep, hway⟩

/-- What is the case when a stream stops copying. If it is for a failure, its tunnel is taken down
in the same move. -/
theorem exists_reason_of_ending {r : Record} {way : Stream.Ending}
    (hreaches : Reaches {} r.before) (hmove : r.before.after? r.move = some r.after)
    (hending : r.ending? j = some way) :
    ∃ s t, r.stream? j = some s ∧ r.before.tunnels[s.tunnel]? = some t ∧
      (way = .idle → t.reader.idleTimeout ≠ none) ∧
      (way = .yielded → t.hasQueuedReader = true) ∧
      ∀ failure, way = .failed failure → r.after.IsDown s.tunnel t.identity.text := by
  obtain ⟨s, s', t, after, hstream, ht, hstep, hreason⟩ := exists_step_of_ending hmove hending
  obtain ⟨hgo, hs⟩ := stream?_eq_some hstream
  refine ⟨s, t, hstream, ht, ?_, ?_, ?_⟩
  · rintro rfl
    obtain ⟨t₀, ht₀, htimed⟩ := hasTimedStreams_of_reaches hreaches j s hs
    rw [ht] at ht₀
    cases ht₀
    exact Stream.idleTimeout_of_idle hreason (hasSoundReaders_of_reaches hreaches _ t ht) htimed
  · rintro rfl
    exact hstep.hasQueuedReader hreason
  · rintro failure rfl
    refine isDown_of_detectsFailure hmove ?_ ht
    rw [hgo]
    exact ⟨s, t, hs, rfl, ht, Stream.detectsFailure_of_failed hreason⟩

/-- A stream that cannot go on has ended or waits. -/
theorem waits_of_resumeStream {s : Stream} {t : Tunnel} (hs : h.streams[j]? = some s)
    (ht : h.tunnels[s.tunnel]? = some t) (hnone : h.resumeStream j = none) :
    s.phase = .ended ∨ s.Waits h.clock t := by
  refine Stream.waits_of_step (r := h.registry) (Option.eq_none_iff_forall_ne_some.mpr ?_)
  rintro ⟨after, s'⟩ hstep
  simp [resumeStream, hs, ht, hstep] at hnone

/-- The response of the stream with this number has ended this way, as the records tell. -/
structure EndsBy (h : Hub) (log : List Record) (j : Nat) (s : Stream) (way : Stream.Ending) :
    Prop where
  once : endings log j = [way]
  body : s.outlet.chunks.flatten = (batchesOf log j).flatten ++ way.suffix (batchesOf log j)
  reason : ∃ pre r post t, log = pre ++ r :: post ∧ r.ending? j = some way ∧
    r.before.tunnels[s.tunnel]? = some t ∧
    (way = .idle → t.reader.idleTimeout ≠ none) ∧
    (way = .yielded → batchesOf log j ≠ [] ∧ t.hasQueuedReader = true) ∧
    ∀ failure, way = .failed failure →
      r.after.IsDown s.tunnel t.identity.text ∧ h.isClosedAt s.tunnel = true ∧
        ((∀ later ∈ post, ¬ later.before.registers later.move t.identity.text) →
          h.registry.find? t.identity.text = none)
  alone : (∀ failure, way ≠ .failed failure) → ∀ r ∈ log, r.stream? j ≠ none → r.LeavesAlone

/-- A finished response has ended in one of the ways. -/
theorem exists_endsBy {log : List Record} (hrun : Run {} log h) {s : Stream}
    (hs : h.streams[j]? = some s) (hthere : s.outlet.abandoned = false)
    (hfinished : s.outlet.finished = true) : ∃ way, h.EndsBy log j s way := by
  have htells := (isTold_of_run hrun j).present s hs
  obtain ⟨way, hway, hchunks, hyielded⟩ := (htells.course hthere).of_finished hfinished
  obtain ⟨r, hr, hending⟩ : ∃ r ∈ log, r.ending? j = some way := by
    have hmem : way ∈ endings log j := by simp [hway]
    exact List.mem_filterMap.mp hmem
  obtain ⟨pre, post, rfl⟩ := List.append_of_mem hr
  obtain ⟨hpre, hmove, hpost⟩ := hrun.record
  obtain ⟨before, t, hstream, ht, hidle, hqueued, hdown⟩ :=
    exists_reason_of_ending hpre.reaches hmove hending
  rw [htells.place r hr before hstream] at ht hdown
  refine ⟨way, hway, hchunks, ⟨pre, r, post, t, rfl, hending, ht, hidle, ?_, ?_⟩, ?_⟩
  · exact fun hyields => ⟨hyielded hyields, hqueued hyields⟩
  · intro failure hfailed
    have hdown := hdown failure hfailed
    exact ⟨hdown, hdown.isClosedAt_run hpost, fun hregisters => (hdown.run hpost hregisters).absent⟩
  · intro hintact
    refine htells.alone hthere fun failure hmem => ?_
    rw [hway] at hmem
    exact hintact failure (List.mem_singleton.mp hmem).symm

/-- Along every run from an empty hub, whatever else happens, for a response whose client is there.
If it has ended, it stopped copying once: because a read gave it an empty batch, which takes an
idle timeout; because another reader waited when something had been written; or because of a
failure. Its body is the batches and the terminating instruction, which only a failure other than
a closed tunnel leaves out, if there was no batch. Unless it failed, it left every tunnel as open
and as registered as it was. If it did, its tunnel was taken down in that very move, before the
response could end. If it has not ended, it goes on, or waits for its client to take a chunk, for
its source or for the shutdown of the sink. -/
theorem response_ends_one_way {log : List Record} (hrun : Run {} log h) {s : Stream}
    (hs : h.streams[j]? = some s) (hthere : s.outlet.abandoned = false) :
    (s.outlet.finished = true → ∃ way, h.EndsBy log j s way) ∧
      (s.outlet.finished = false → h.resumeStream j = none →
        ∃ t, h.tunnels[s.tunnel]? = some t ∧ s.Waits h.clock t) := by
  refine ⟨exists_endsBy hrun hs hthere, fun hunfinished hnone => ?_⟩
  obtain ⟨t, ht, _⟩ := hasTimedStreams_of_reaches hrun.reaches j s hs
  refine ⟨t, ht, (waits_of_resumeStream hs ht hnone).resolve_left fun hphase => ?_⟩
  have hcourse := ((isTold_of_run hrun j).present s hs).course hthere
  rw [hcourse.finished_of_ended hphase] at hunfinished
  cases hunfinished

/-- A request that reads is given an instruction before the source turns out to be broken. -/
def breaking : List Move :=
  let read : Request :=
    { query := Operation.readPrefix ++ (Identity.random 0).text, connection := .error .notCreated }
  [.act (.open (Identity.random 0) none {} [.data (Utf8.ofString "3.nop;"), .fail "broken"]),
    .act (.put (Identity.random 0).text 0), .act (.call "first" (.request read)),
    .go (.call 0), .go (.stream 0), .go (.stream 0), .go (.stream 0), .go (.stream 0)]

theorem response_ends_when_broken :
    ∃ s, (({} : Hub).replay breaking).2.streams[0]? = some s ∧
      s.outlet.chunks.flatten = Utf8.ofString "3.nop;0.;" ∧
      (({} : Hub).replay breaking).2.EndsBy (({} : Hub).replay breaking).1 0 s
        (.failed (.reading "broken")) := by
  obtain ⟨hends, _⟩ :=
    response_ends_one_way (run_replay {} breaking) (j := 0) (s := _) rfl (by decide)
  obtain ⟨way, hway⟩ := hends (by decide)
  have hfailed : endings (({} : Hub).replay breaking).1 0 = [.failed (.reading "broken")] := by
    decide
  rw [hway.once] at hfailed
  cases hfailed
  exact ⟨_, rfl, by decide, hway⟩

end Hub

end LongPollTunnel

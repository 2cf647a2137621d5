import LongPollTunnel.Proofs.Endings

/-! # Where a response is cut into chunks

Writes to an outlet are held back until they are flushed, or until too much is held back, and a
client that is slow makes a flush wait. Main statement: what was handed over and then what is held
back is what was written, no chunk is empty, and little is held back once a write is over. A stream
uses its outlet so, and since it writes whole instructions only, no chunk of a response ends inside
an instruction.
-/

namespace LongPollTunnel

open Framing

namespace Outlet

/-! ## Use of an outlet -/

/-- What is done with the writing end of a response. -/
inductive Op where
  | write (bytes : List UInt8)
  | flush
  | finish
  deriving DecidableEq, Repr

def Op.bytes : Op → List UInt8
  | .write bytes => bytes
  | .flush => []
  | .finish => Instruction.terminator

variable {o next after : Outlet} {op : Op} {ops : List Op}

/-- The buffer is handed over, after the client has taken chunks to make room. -/
inductive FlushesTo : Outlet → Outlet → Prop where
  | passed {o after : Outlet} (hflush : o.flush = .passed after) : FlushesTo o after
  | taken {o next after : Outlet} {bytes : List UInt8} (htake : o.take = .chunk bytes next)
      (hlater : FlushesTo next after) : FlushesTo o after

/-- One operation, until it is over. -/
inductive Does (o : Outlet) : Op → Outlet → Prop where
  | holds {bytes : List UInt8} (hroom : (o.write bytes).isOverfull = false) :
      Does o (.write bytes) (o.write bytes)
  | spills {bytes : List UInt8} {after : Outlet} (hfull : (o.write bytes).isOverfull = true)
      (hflush : (o.write bytes).FlushesTo after) : Does o (.write bytes) after
  | flushes {after : Outlet} (hflush : o.FlushesTo after) : Does o .flush after
  | finishes {middle after : Outlet} (hwrite : Does o (.write Instruction.terminator) middle)
      (hflush : middle.FlushesTo after) : Does o .finish after

/-- An outlet on which these operations were done, one after the other, and whose client takes
chunks at any time and stays. -/
inductive Used : List Op → Outlet → Prop where
  | fresh : Used [] {}
  | does {ops : List Op} {op : Op} {o after : Outlet} (hused : Used ops o)
      (hdoes : o.Does op after) : Used (ops ++ [op]) after
  | taken {ops : List Op} {bytes : List UInt8} {o after : Outlet} (hused : Used ops o)
      (htake : o.take = .chunk bytes after) : Used ops after

/-- Flushing moves bytes from the buffer into chunks and loses none. -/
theorem FlushesTo.content_eq (hflush : o.FlushesTo after) : after.content = o.content := by
  induction hflush with
  | passed hflush => exact content_flush hflush
  | taken htake _ ih =>
      rw [ih, eq_of_take htake]
      rfl

/-- Nothing is left in the buffer after a flush. -/
theorem FlushesTo.buffer_eq (hflush : o.FlushesTo after) : after.buffer = [] := by
  induction hflush with
  | passed hflush => exact buffer_flush hflush
  | taken _ _ ih => exact ih

/-- As long as the client stays, a flush is over once it has taken enough. -/
theorem exists_flushesTo (hthere : o.abandoned = false) : ∃ after, o.FlushesTo after := by
  by_cases hempty : o.buffer.isEmpty
  · exact ⟨o, .passed (by rw [flush, if_pos hempty])⟩
  · induction hleft : o.chunks.length - o.taken generalizing o with
    | zero =>
        have hflush :
            o.flush = .passed { o with buffer := [], chunks := o.chunks ++ [o.buffer] } := by
          rw [flush, if_neg hempty, if_neg (by rw [hthere]; exact Bool.false_ne_true),
            if_pos (by rw [hleft]; decide)]
        exact ⟨_, .passed hflush⟩
    | succ left ih =>
        -- the client may take the oldest of the chunks that are left
        have hlt : o.taken < o.chunks.length := by omega
        have htake : o.take = .chunk o.chunks[o.taken] { o with taken := o.taken + 1 } := by
          rw [take, List.getElem?_eq_getElem hlt]
        obtain ⟨after, hafter⟩ :=
          @ih { o with taken := o.taken + 1 } hthere hempty (by dsimp only; omega)
        exact ⟨after, .taken htake hafter⟩

theorem FlushesTo.abandoned_eq (hflush : o.FlushesTo after) : after.abandoned = o.abandoned := by
  induction hflush with
  | passed hflush => exact (kept_of_flush hflush).2.2
  | taken htake _ ih =>
      rw [ih, eq_of_take htake]

theorem Does.abandoned_eq (hdoes : o.Does op after) : after.abandoned = o.abandoned := by
  induction hdoes with
  | holds _ => rfl
  | spills _ hflush => exact hflush.abandoned_eq
  | flushes hflush => exact hflush.abandoned_eq
  | finishes _ hflush ih => exact hflush.abandoned_eq.trans ih

theorem exists_does_write (hthere : o.abandoned = false) (bytes : List UInt8) :
    ∃ after, o.Does (.write bytes) after := by
  cases hfull : (o.write bytes).isOverfull with
  | true =>
      obtain ⟨after, hflush⟩ := exists_flushesTo (o := o.write bytes) hthere
      exact ⟨after, .spills hfull hflush⟩
  | false => exact ⟨_, .holds hfull⟩

/-- As long as the client is there, each operation comes to its end. -/
theorem exists_does (hthere : o.abandoned = false) (op : Op) : ∃ after, o.Does op after := by
  cases op with
  | write bytes => exact exists_does_write hthere bytes
  | flush =>
      obtain ⟨after, hflush⟩ := exists_flushesTo hthere
      exact ⟨after, .flushes hflush⟩
  | finish =>
      obtain ⟨middle, hwrite⟩ := exists_does_write hthere Instruction.terminator
      obtain ⟨after, hflush⟩ := exists_flushesTo (hwrite.abandoned_eq.trans hthere)
      exact ⟨after, .finishes hwrite hflush⟩

/-- To finish is to write and to flush, even if the write is flushed at once. -/
theorem does_finish (hflush : o.terminate.FlushesTo after) : o.Does .finish after := by
  cases hfull : o.terminate.isOverfull with
  | false => exact .finishes (.holds hfull) hflush
  | true =>
      have hagain : after.flush = .passed after := by
        rw [flush, hflush.buffer_eq]
        rfl
      exact .finishes (.spills hfull hflush) (.passed hagain)

/-- An operation adds its own bytes and nothing else. -/
theorem Does.content_eq (hdoes : o.Does op after) : after.content = o.content ++ op.bytes := by
  induction hdoes with
  | holds _ => exact content_write o _
  | spills _ hflush => rw [hflush.content_eq, content_write, Op.bytes]
  | flushes hflush => rw [hflush.content_eq, Op.bytes, List.append_nil]
  | finishes _ hflush ih =>
      rw [hflush.content_eq, ih]
      rfl

theorem length_buffer_le_of_not_isOverfull (hroom : o.isOverfull = false) :
    o.buffer.length ≤ bufferSize :=
  Nat.le_of_not_lt (of_decide_eq_false hroom)

/-- After each operation the buffer fits. -/
theorem Does.length_buffer_le (hdoes : o.Does op after) : after.buffer.length ≤ bufferSize := by
  cases hdoes with
  | holds hroom => exact length_buffer_le_of_not_isOverfull hroom
  | spills _ hflush | flushes hflush | finishes _ hflush =>
      rw [hflush.buffer_eq]
      exact Nat.zero_le _

/-! ## What chunks are made of -/

/-- Whatever is held back is fit to be handed over, and so was every chunk, which is not empty. -/
structure IsCut (P : List UInt8 → Prop) (o : Outlet) : Prop where
  buffer : P o.buffer
  chunks : ∀ chunk ∈ o.chunks, P chunk ∧ chunk ≠ []

variable {P : List UInt8 → Prop}

theorem IsCut.congr (hcut : o.IsCut P) (hbuffer : after.buffer = o.buffer)
    (hchunks : after.chunks = o.chunks) : after.IsCut P where
  buffer := by
    rw [hbuffer]
    exact hcut.buffer
  chunks := by
    rw [hchunks]
    exact hcut.chunks

/-- A flush makes one chunk of the buffer, and none of an empty one. -/
theorem IsCut.flush (hcut : o.IsCut P) (hnil : P []) (hflush : o.flush = .passed after) :
    after.IsCut P := by
  unfold Outlet.flush at hflush
  split at hflush
  · cases hflush
    exact hcut
  next hsome =>
    split at hflush
    · cases hflush
    · split at hflush
      · cases hflush
        refine ⟨hnil, ?_⟩
        intro chunk hchunk
        rcases List.mem_append.mp hchunk with hold | hnew
        · exact hcut.chunks chunk hold
        · rw [List.mem_singleton.mp hnew]
          exact ⟨hcut.buffer, fun hempty => hsome (List.isEmpty_iff.mpr hempty)⟩
      · cases hflush

theorem FlushesTo.isCut (hflush : o.FlushesTo after) (hnil : P []) (hcut : o.IsCut P) :
    after.IsCut P := by
  induction hflush with
  | passed hflush => exact hcut.flush hnil hflush
  | taken htake _ ih =>
      rw [eq_of_take htake] at ih
      exact ih (hcut.congr rfl rfl)

/-- Whatever is written, no chunk is empty. -/
theorem Does.isCut (hdoes : o.Does op after) (hall : ∀ bytes, P bytes) (hcut : o.IsCut P) :
    after.IsCut P := by
  induction hdoes with
  | holds _ => exact ⟨hall _, hcut.chunks⟩
  | spills _ hflush => exact hflush.isCut (hall _) ⟨hall _, hcut.chunks⟩
  | flushes hflush => exact hflush.isCut (hall _) hcut
  | finishes _ hflush ih => exact hflush.isCut (hall _) ih

/-- Whatever is done with an outlet of a client that stays. -/
theorem Used.accounts (hused : Used ops o) :
    o.content = ops.flatMap Op.bytes ∧ o.IsCut (fun _ => True) ∧
      o.buffer.length ≤ bufferSize ∧ o.abandoned = false := by
  induction hused with
  | fresh => exact ⟨rfl, ⟨trivial, nofun⟩, Nat.zero_le _, rfl⟩
  | does _ hdoes ih =>
      obtain ⟨hcontent, hcut, _, hthere⟩ := ih
      refine ⟨?_, hdoes.isCut (fun _ => trivial) hcut, hdoes.length_buffer_le,
        hdoes.abandoned_eq.trans hthere⟩
      rw [hdoes.content_eq, hcontent, List.flatMap_append, List.flatMap_singleton]
  | taken _ htake ih =>
      obtain ⟨hcontent, hcut, hroom, hthere⟩ := ih
      rw [eq_of_take htake]
      exact ⟨hcontent, hcut.congr rfl rfl, hroom, hthere⟩

end Outlet

/-! ## Chunks of a stream -/

namespace Stream

variable {now : Nat} {s s' : Stream} {r : Registry} {t : Tunnel} {around after : Surroundings}

/-- The response is cut between instructions, and while it goes on with a read little of it is
held back. -/
structure IsChunked (s : Stream) : Prop where
  isCut : s.outlet.IsCut Whole
  room : ∀ deadline, s.phase = .reading deadline → s.outlet.buffer.length ≤ Outlet.bufferSize

/-- The terminating instruction is a whole one. -/
theorem whole_terminator : Whole Instruction.terminator := by
  have hend : instructionEnd Instruction.terminator =
      .ok (some Instruction.terminator.length) := by decide
  have hwhole := Whole.cons hend .nil
  rwa [List.append_nil] at hwhole

/-- Whole batches are written behind whole batches. -/
theorem isCut_write {o : Outlet} {bytes : List UInt8} (hcut : o.IsCut Whole)
    (hbytes : Whole bytes) : (o.write bytes).IsCut Whole :=
  ⟨hcut.buffer.append hbytes, hcut.chunks⟩

theorem isChunked_finish (hcut : s.outlet.IsCut Whole) : s.finish.IsChunked :=
  ⟨isCut_write hcut whole_terminator, nofun⟩

theorem isChunked_leave (hcut : s.outlet.IsCut Whole) (around : Surroundings) :
    (s.leave around).2.IsChunked :=
  ⟨hcut.congr rfl rfl, nofun⟩

/-- Who gives up may still write the terminating instruction. -/
theorem GivesUp.isChunked (hgivesUp : s.GivesUp s') (hcut : s.outlet.IsCut Whole) :
    s'.IsChunked := by
  cases hgivesUp with
  | finishes => exact isChunked_finish hcut
  | ends _ around => exact isChunked_leave hcut around
  | closes _ _ => exact ⟨hcut, nofun⟩

/-- Reading on, giving way and looking ahead cut nothing. -/
theorem GoesOn.isChunked (hgoesOn : s.GoesOn around after s') (hcut : s.outlet.IsCut Whole)
    (hroom : ∀ deadline, s'.phase = .reading deadline →
      s.outlet.buffer.length ≤ Outlet.bufferSize) : s'.IsChunked := by
  rcases hgoesOn.stream with rfl | ⟨deadline, rfl⟩ | rfl | rfl
  · exact isChunked_finish hcut
  · exact ⟨hcut, hroom⟩
  · exact ⟨hcut, nofun⟩
  · exact ⟨hcut, nofun⟩

/-- A step hands over whole instructions, since whole instructions were written. -/
theorem Step.isChunked (hstep : s.Step now r t after s') (hs : s.IsChunked)
    (hsound : t.reader.Sound) : s'.IsChunked := by
  cases hstep with
  | idles hphase hread => exact isChunked_finish hs.isCut
  | reads hphase hread hwrite hsome hroom hready =>
      have hbatch := whole_handedAt s now hsound
      rw [handedAt_eq hphase hread] at hbatch
      refine hwrite.isChunked (isCut_write hs.isCut hbatch) fun deadline hreading => ?_
      exact Outlet.length_buffer_le_of_not_isOverfull (hroom (by simp [hreading]))
  | waits hphase hread => exact hs
  | fails hphase hread => exact (s.givesUp_fail _ _).isChunked hs.isCut
  | flushes hphase hnext hflush hgoesOn =>
      refine hgoesOn.isChunked (hs.isCut.flush .nil hflush) fun _ _ => ?_
      rw [Outlet.buffer_flush hflush]
      exact Nat.zero_le _
  | @leaves outlet hphase hflush =>
      have hcut : outlet.IsCut Whole := by
        rcases hflush with hpassed | ⟨_, rfl⟩
        · exact hs.isCut.flush .nil hpassed
        · exact hs.isCut
      exact isChunked_leave (s := { s with outlet }) hcut _
  | loses hphase hnext hgone => exact (s.givesUp_fail _ _).isChunked hs.isCut
  | closes hphase hclose => exact (s.givesUp_afterTeardown _ _).isChunked hs.isCut

theorem SameButClient.isChunked (hsame : s.SameButClient s') (hs : s.IsChunked) :
    s'.IsChunked where
  isCut := hs.isCut.congr hsame.buffer hsame.chunks
  room := by
    rw [hsame.phase, hsame.buffer]
    exact hs.room

theorem isChunked_start (now number ticket : Nat) (t : Tunnel) :
    (start now number ticket t).IsChunked :=
  ⟨⟨.nil, nofun⟩, fun _ _ => Nat.zero_le _⟩

/-! ## How a stream uses its outlet -/

/-- The outlet was used so. While the stream flushes, the last operation is over as soon as the
client has made room. -/
inductive UsesOutlet (s : Stream) : Prop where
  | rests {ops : List Outlet.Op} (hphase : ∀ next, s.phase ≠ .flushing next)
      (hongoing : s.phase ≠ .ended) (hused : Outlet.Used ops s.outlet) : UsesOutlet s
  | flushes {ops : List Outlet.Op} {op : Outlet.Op} {o : Outlet} {next : Next}
      (hphase : s.phase = .flushing next) (hused : Outlet.Used ops o)
      (hdoes : ∀ after, s.outlet.FlushesTo after → o.Does op after) : UsesOutlet s
  | ended {ops : List Outlet.Op} {o : Outlet} (hphase : s.phase = .ended)
      (hused : Outlet.Used ops o) (hchunks : s.outlet.chunks = o.chunks)
      (hbuffer : s.outlet.buffer = o.buffer) : UsesOutlet s

variable {ops : List Outlet.Op}

/-- A flush in progress is the rest of an operation that has begun. -/
theorem UsesOutlet.of_flushing {next : Next} (huses : s.UsesOutlet)
    (hphase : s.phase = .flushing next) :
    ∃ ops op o, Outlet.Used ops o ∧ ∀ after, s.outlet.FlushesTo after → o.Does op after := by
  cases huses with
  | rests hother _ _ => exact absurd hphase (hother next)
  | flushes _ hused hdoes => exact ⟨_, _, _, hused, hdoes⟩
  | ended hended _ _ _ =>
      rw [hphase] at hended
      cases hended

theorem UsesOutlet.of_resting (huses : s.UsesOutlet) (hphase : ∀ next, s.phase ≠ .flushing next)
    (hongoing : s.phase ≠ .ended) : ∃ ops, Outlet.Used ops s.outlet := by
  cases huses with
  | rests _ _ hused => exact ⟨_, hused⟩
  | flushes hflushing _ _ => exact absurd hflushing (hphase _)
  | ended hended _ _ _ => exact absurd hended hongoing

theorem usesOutlet_finish (hused : Outlet.Used ops s.outlet) : s.finish.UsesOutlet :=
  .flushes rfl hused fun _ hflush => Outlet.does_finish hflush

theorem usesOutlet_leave (hused : Outlet.Used ops s.outlet) (around : Surroundings) :
    (s.leave around).2.UsesOutlet :=
  .ended rfl hused rfl rfl

theorem GivesUp.usesOutlet (hgivesUp : s.GivesUp s') (hused : Outlet.Used ops s.outlet) :
    s'.UsesOutlet := by
  cases hgivesUp with
  | finishes => exact usesOutlet_finish hused
  | ends _ around => exact usesOutlet_leave hused around
  | closes _ _ => exact .rests (by simp) (by simp) hused

theorem GoesOn.usesOutlet (hgoesOn : s.GoesOn around after s')
    (hused : Outlet.Used ops s.outlet) : s'.UsesOutlet := by
  rcases hgoesOn.stream with rfl | ⟨deadline, rfl⟩ | rfl | rfl
  · exact usesOutlet_finish hused
  · exact .rests (by simp) (by simp) hused
  · exact .flushes rfl hused fun _ hflush => .flushes hflush
  · exact .flushes rfl hused fun _ hflush => .flushes hflush

/-- After a write that leaves too much held back comes a flush, and the two are one operation. -/
theorem GoesOn.usesOutlet_write {batch : List UInt8} (hused : Outlet.Used ops s.outlet)
    (hgoesOn : { s with outlet := s.outlet.write batch }.GoesOn around after s')
    (hroom : s'.phase ≠ .flushing .lookAhead → (s.outlet.write batch).isOverfull = false) :
    s'.UsesOutlet := by
  cases hfull : (s.outlet.write batch).isOverfull with
  | false => exact hgoesOn.usesOutlet (hused.does (.holds hfull))
  | true =>
      have hspills : s'.phase = .flushing .lookAhead := by
        by_contra hphase
        rw [hroom hphase] at hfull
        cases hfull
      rcases hgoesOn.stream with rfl | ⟨deadline, rfl⟩ | rfl | rfl
      · cases hspills
      · cases hspills
      · exact .flushes rfl hused fun _ hflush => .spills hfull hflush
      · cases hspills

/-- What a stream does is done with its outlet as long as the client stays. -/
theorem Step.usesOutlet (hstep : s.Step now r t after s') (huses : s.UsesOutlet)
    (hthere : s.outlet.abandoned = false) : s'.UsesOutlet := by
  cases hstep with
  | idles hphase hread =>
      obtain ⟨ops, hused⟩ := huses.of_resting (by simp [hphase]) (by simp [hphase])
      exact usesOutlet_finish hused
  | reads hphase hread hwrite hsome hroom hready =>
      obtain ⟨ops, hused⟩ := huses.of_resting (by simp [hphase]) (by simp [hphase])
      exact hwrite.usesOutlet_write hused hroom
  | waits hphase hread => exact huses
  | fails hphase hread =>
      obtain ⟨ops, hused⟩ := huses.of_resting (by simp [hphase]) (by simp [hphase])
      exact (s.givesUp_fail _ _).usesOutlet hused
  | flushes hphase hnext hflush hgoesOn =>
      obtain ⟨ops, op, o, hused, hdoes⟩ := huses.of_flushing hphase
      exact hgoesOn.usesOutlet (hused.does (hdoes _ (.passed hflush)))
  | @leaves outlet hphase hflush =>
      rcases hflush with hpassed | ⟨hgone, _⟩
      · obtain ⟨ops, op, o, hused, hdoes⟩ := huses.of_flushing hphase
        exact usesOutlet_leave (s := { s with outlet }) (hused.does (hdoes _ (.passed hpassed))) _
      · rw [abandoned_of_flush_eq_gone hgone] at hthere
        cases hthere
  | loses hphase hnext hgone =>
      rw [abandoned_of_flush_eq_gone hgone] at hthere
      cases hthere
  | closes hphase hclose =>
      obtain ⟨ops, hused⟩ := huses.of_resting (by simp [hphase]) (by simp [hphase])
      exact (s.givesUp_afterTeardown _ _).usesOutlet hused

/-- A client that stays can only take chunks, and may do so at any time. -/
theorem UsesOutlet.sameButClient (huses : s.UsesOutlet) (hsame : s.SameButClient s')
    (hthere : s'.outlet.abandoned = false) : s'.UsesOutlet := by
  have htakes := hsame.takes hthere
  cases huses with
  | rests hother hongoing hused =>
      rw [← hsame.phase] at hother hongoing
      rcases htakes with heq | ⟨bytes, htake⟩
      · rw [← heq] at hused
        exact .rests hother hongoing hused
      · exact .rests hother hongoing (hused.taken htake)
  | flushes hphase hused hdoes =>
      refine .flushes (hsame.phase.trans hphase) hused fun after hflush => hdoes after ?_
      rcases htakes with heq | ⟨bytes, htake⟩
      · rwa [← heq]
      · exact .taken htake hflush
  | ended hphase hused hchunks hbuffer =>
      exact .ended (hsame.phase.trans hphase) hused (hsame.chunks.trans hchunks)
        (hsame.buffer.trans hbuffer)

theorem usesOutlet_start (now number ticket : Nat) (t : Tunnel) :
    (start now number ticket t).UsesOutlet :=
  .rests (by simp [start]) (by simp [start]) .fresh

end Stream

namespace Hub

variable {h next : Hub} {move : Move}

/-- What each stream has from its start, and no step and no client can change. -/
structure KeptByStreams (P : Stream → Prop) : Prop where
  start : ∀ now number ticket t, P (Stream.start now number ticket t)
  step : ∀ now s r t after s', t.reader.Sound → Stream.Step now s r t after s' → P s → P s'
  sameButClient : ∀ s s', s.SameButClient s' → P s → P s'

variable {P : Stream → Prop}

/-- The step lemma: streams start, go on by themselves, or are changed by their clients. -/
theorem KeptByStreams.after? (hkept : KeptByStreams P) (hsound : h.HasSoundReaders)
    (hall : ∀ s ∈ h.streams, P s) (hmove : h.after? move = some next) :
    ∀ s ∈ next.streams, P s := by
  cases streamsMove_after? hmove with
  | same hother hsame =>
      intro s' hs'
      obtain ⟨s, hs, hlike⟩ := Stream.exists_of_mem_forall₂ hsame hs'
      exact hkept.sameButClient s s' hlike (hall s hs)
  | start hstart =>
      obtain ⟨c, hold, t, _, _, _, _, heq⟩ := hstart
      rw [heq]
      intro s hs
      rcases List.mem_append.mp hs with hbefore | hnew
      · exact hall s hbefore
      · rw [List.mem_singleton.mp hnew]
        exact hkept.start _ _ _ _
  | step hs ht hstep =>
      intro x hx
      rcases List.mem_or_eq_of_mem_set hx with hbefore | rfl
      · exact hall x hbefore
      · exact hkept.step _ _ _ _ _ _ (hsound _ _ ht) hstep (hall _ (List.mem_of_getElem? hs))

/-- Then each stream has it along every run. -/
theorem KeptByStreams.of_reaches (hkept : KeptByStreams P) (hreaches : Reaches {} h) :
    ∀ s ∈ h.streams, P s := by
  obtain ⟨log, hrun⟩ := Run.exists_of_reaches hreaches
  clear hreaches
  induction hrun with
  | nil => exact nofun
  | snoc hrun hmove ih =>
      exact hkept.after? (hasSoundReaders_of_reaches hrun.reaches) ih hmove

theorem keptByStreams_isChunked : KeptByStreams Stream.IsChunked where
  start := Stream.isChunked_start
  step := fun _ _ _ _ _ _ hsound hstep hs => hstep.isChunked hs hsound
  sameButClient := fun _ _ hsame hs => hsame.isChunked hs

theorem keptByStreams_usesOutlet :
    KeptByStreams fun s => s.outlet.abandoned = false → s.UsesOutlet where
  start := fun now number ticket t _ => Stream.usesOutlet_start now number ticket t
  step := by
    intro now s r t after s' _ hstep huses hthere
    rw [hstep.abandoned] at hthere
    exact hstep.usesOutlet (huses hthere) hthere
  sameButClient := fun _ _ hsame huses hthere =>
    (huses (hsame.abandoned hthere)).sameButClient hsame hthere

/-- However an outlet is used whose client stays, what was handed over and then what is held back
is what was written, no chunk is empty, at most the size of the buffer is held back after each
operation, and none of them waits for ever. And along every run a stream whose client stays uses
its outlet so; each chunk of each response is made of whole instructions, and so is what is held
back. -/
theorem chunks_keep_instructions_whole :
    (∀ ops o, Outlet.Used ops o →
        o.chunks.flatten ++ o.buffer = ops.flatMap Outlet.Op.bytes ∧
          (∀ chunk ∈ o.chunks, chunk ≠ []) ∧ o.buffer.length ≤ Outlet.bufferSize ∧
          ∀ op, ∃ after, o.Does op after) ∧
      ∀ h, Reaches {} h → ∀ s ∈ h.streams,
        (s.outlet.abandoned = false → s.UsesOutlet) ∧
          (∀ chunk ∈ s.outlet.chunks, Whole chunk ∧ chunk ≠ []) ∧ Whole s.outlet.buffer ∧
          ∀ deadline, s.phase = .reading deadline →
            s.outlet.buffer.length ≤ Outlet.bufferSize := by
  refine ⟨?_, ?_⟩
  · intro ops o hused
    obtain ⟨hcontent, hcut, hroom, hthere⟩ := hused.accounts
    exact ⟨hcontent, fun chunk hchunk => (hcut.chunks chunk hchunk).2, hroom,
      Outlet.exists_does hthere⟩
  · intro h hreaches s hs
    have hchunked := keptByStreams_isChunked.of_reaches hreaches s hs
    exact ⟨keptByStreams_usesOutlet.of_reaches hreaches s hs, hchunked.isCut.chunks,
      hchunked.isCut.buffer, hchunked.room⟩

/-- An outlet is flushed between two writes, and a stream gives way after one instruction. -/
theorem chunks_keep_instructions_whole_when_giving_way :
    (∃ o, Outlet.Used [.write (Utf8.ofString "1."), .flush, .finish] o ∧
        o.chunks.flatten ++ o.buffer = Utf8.ofString "1." ++ Instruction.terminator) ∧
      ∃ s ∈ (({} : Hub).replay takingTurns).2.streams,
        s.outlet.chunks = [Utf8.ofString "1.a;", Instruction.terminator] ∧
          ∀ chunk ∈ s.outlet.chunks, Whole chunk ∧ chunk ≠ [] := by
  have hused : Outlet.Used [.write (Utf8.ofString "1."), .flush, .finish]
      { chunks := [Utf8.ofString "1.", Instruction.terminator] } :=
    ((Outlet.Used.fresh.does (.holds rfl)).does (.flushes (.passed rfl))).does
      (.finishes (.holds rfl) (.passed rfl))
  obtain ⟨s, hs, hchunks⟩ : ∃ s ∈ (({} : Hub).replay takingTurns).2.streams,
      s.outlet.chunks = [Utf8.ofString "1.a;", Instruction.terminator] := by
    decide +kernel
  obtain ⟨houtlets, hstreams⟩ := chunks_keep_instructions_whole
  exact ⟨⟨_, hused, (houtlets _ _ hused).1⟩,
    s, hs, hchunks, (hstreams _ (run_replay {} takingTurns).reaches s hs).2.1⟩

end Hub

end LongPollTunnel

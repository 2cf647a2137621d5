import LongPollTunnel.Proofs.Cutting
import LongPollTunnel.Proofs.Encoding
import LongPollTunnel.Tunnel.Writer

/-! # What is sent is received

Instructions are written to a sink that takes as much of each write as it likes, and what it
took is read back in whatever pieces. Since no instruction begins another, the pieces can be put
together in one way only. Main statement: the instructions come out one by one and in order,
undivided where a batch is asked for, and after the last of them the stream has ended.
-/

namespace LongPollTunnel

open Framing Instruction

/-! ## Sending -/

namespace Sink

/-- A sink in this manner takes at least one byte of a write unless it makes the writer wait. -/
structure Manner.Accepts (m : Manner) : Prop where
  errorAt : m.errorAt = none
  zeroAt : m.zeroAt = none
  maxWrite : m.maxWrite ≠ some 0
  flushError : m.flushError = none

instance (m : Manner) : Decidable m.Accepts :=
  decidable_of_iff
    (m.errorAt = none ∧ m.zeroAt = none ∧ m.maxWrite ≠ some 0 ∧ m.flushError = none)
    ⟨fun ⟨herror, hzero, hmax, hflush⟩ => ⟨herror, hzero, hmax, hflush⟩,
      fun h => ⟨h.errorAt, h.zeroAt, h.maxWrite, h.flushError⟩⟩

/-- A sink in this manner makes nobody wait who writes to it or flushes it. -/
def Manner.IsPrompt (m : Manner) : Prop :=
  m.blockAt = none ∧ m.flushBlockAt = none

instance (m : Manner) : Decidable m.IsPrompt :=
  inferInstanceAs (Decidable (_ ∧ _))

/-- A sink that changes its manner so takes any bytes in the end: none of the manners refuses
them, and one never makes a writer wait. -/
structure TakesAll (manners : List Manner) : Prop where
  accepts : ∀ m ∈ manners, m.Accepts
  ends : ∃ m ∈ manners, m.IsPrompt

instance (manners : List Manner) : Decidable (TakesAll manners) :=
  decidable_of_iff ((∀ m ∈ manners, m.Accepts) ∧ ∃ m ∈ manners, m.IsPrompt)
    ⟨fun ⟨haccepts, hends⟩ => ⟨haccepts, hends⟩, fun h => ⟨h.accepts, h.ends⟩⟩

/-- Writes bytes. Whenever the writer has to wait, the sink changes its manner to the next of
these, and the write goes on. The manners that are left come last. -/
def putOn : List Manner → Sink → List UInt8 → Writing × Sink × List Manner
  | [], s, bytes => ((s.put false bytes).1, (s.put false bytes).2, [])
  | manner :: later, s, bytes =>
    match s.put false bytes with
    | (.waiting rest, s) => putOn later (s.withManner manner) rest
    | (writing, s) => (writing, s, manner :: later)

/-- Flushes. Whenever that has to wait, the sink changes its manner to the next of these. -/
def flushOn : List Manner → Sink → Option (Except Failure Unit × Sink)
  | [], s => s.flushOut?
  | manner :: later, s =>
    match s.flushOut? with
    | some flushed => some flushed
    | none => flushOn later (s.withManner manner)

/-- Writes an instruction and flushes it. -/
def send (manners : List Manner) (s : Sink) (i : Instruction) : Outcome Failure Unit × Sink :=
  match s.putOn manners i.encode with
  | (.done, s, manners) =>
    match s.flushOn manners with
    | some (.ok _, s) => (.done (), s)
    | some (.error failure, s) => (.failed failure, s)
    | none => (.waiting, s)
  | (.failed failure, s, _) => (.failed failure, s)
  | (.waiting _, s, _) => (.waiting, s)

/-- Sends instructions one after the other, each while the sink changes its manner so. -/
def sendAll : List (Instruction × List Manner) → Sink → Outcome Failure Unit × Sink
  | [], s => (.done (), s)
  | (i, manners) :: rest, s =>
    match s.send manners i with
    | (.done _, s) => sendAll rest s
    | (outcome, s) => (outcome, s)

variable {s : Sink} {manners : List Manner}

/-- One write is taken in part at least, or waits. -/
theorem reply_of_accepts (haccepts : s.manner.Accepts) {length : Nat} (hsome : 0 < length) :
    (s.reply length = .wait ∧ s.manner.blockAt ≠ none) ∨
      ∃ count, s.reply length = .take (count + 1) := by
  have hcap : 0 < capAt 0 s.manner.maxWrite length := by
    unfold capAt
    split
    next bound hbound =>
      have hpositive : bound ≠ 0 := by
        rintro rfl
        exact haccepts.maxWrite hbound
      omega
    · exact hsome
  unfold reply
  simp only [haccepts.errorAt, haccepts.zeroAt, isPast, Option.any_none, Bool.false_eq_true,
    if_false, capAt]
  cases hblock : s.manner.blockAt with
  | none => exact Or.inr ⟨_, congrArg Reply.take (Nat.succ_pred_eq_of_pos hcap).symm⟩
  | some bound =>
      simp only [Option.any_some]
      split
      · exact Or.inl ⟨rfl, by simp⟩
      next hroom =>
        have hleft : 0 < bound - s.accepted.length := by
          have hless : s.accepted.length < bound := by simpa using hroom
          omega
        have hcount : 0 < min (capAt 0 s.manner.maxWrite length) (bound - s.accepted.length) :=
          Nat.lt_min.mpr ⟨hcap, hleft⟩
        exact Or.inr ⟨_, congrArg Reply.take (Nat.succ_pred_eq_of_pos hcount).symm⟩

/-- Writing takes all bytes, or waits in a manner that makes it wait. -/
theorem writeWithin_of_accepts {rounds : Nat} {bytes : List UInt8}
    (haccepts : s.manner.Accepts) (hrounds : bytes.length ≤ rounds) :
    (s.writeWithin rounds bytes).2.manner = s.manner ∧
      ((s.writeWithin rounds bytes).1 = .all ∨
        s.manner.blockAt ≠ none ∧ ∃ rest, (s.writeWithin rounds bytes).1 = .blocked rest) := by
  induction rounds generalizing s bytes with
  | zero =>
      have hnil : bytes = [] := List.eq_nil_of_length_eq_zero (by omega)
      rw [hnil]
      exact ⟨rfl, Or.inl rfl⟩
  | succ rounds ih =>
      cases bytes with
      | nil => exact ⟨rfl, Or.inl rfl⟩
      | cons byte tail =>
          have hlength : 0 < (byte :: tail).length := Nat.succ_pos _
          rcases reply_of_accepts haccepts hlength with ⟨hwait, hblocks⟩ | ⟨count, htake⟩
          · simp only [writeWithin, hwait]
            exact ⟨trivial, Or.inr ⟨hblocks, _, rfl⟩⟩
          · simp only [writeWithin, htake]
            have hshorter : ((byte :: tail).drop (count + 1)).length ≤ rounds := by
              rw [List.length_drop, List.length_cons]
              rw [List.length_cons] at hrounds
              omega
            exact ih haccepts hshorter

theorem put_of_accepts (haccepts : s.manner.Accepts) (bytes : List UInt8) :
    ∃ taken rest after, bytes = taken ++ rest ∧ after.accepted = s.accepted ++ taken ∧
      after.manner = s.manner ∧
      (rest = [] ∧ s.put false bytes = (.done, after) ∨
        s.manner.blockAt ≠ none ∧ s.put false bytes = (.waiting rest, after)) := by
  obtain ⟨taken, rest, hbytes, haccepted, hrest⟩ := accepted_writeWithin bytes.length s bytes
  obtain ⟨hmanner, hwritten⟩ := writeWithin_of_accepts haccepts (Nat.le_refl bytes.length)
  refine ⟨taken, rest, (s.writeWithin bytes.length bytes).2, hbytes, haccepted, hmanner, ?_⟩
  simp only [put, writeAll, Bool.false_eq_true, if_false]
  generalize s.writeWithin bytes.length bytes = result at hrest hwritten ⊢
  obtain ⟨written, after⟩ := result
  rcases hwritten with rfl | ⟨hblocks, left, rfl⟩
  · exact Or.inl ⟨hrest, rfl⟩
  · have hleft : rest = left := hrest
    rw [hleft]
    exact Or.inr ⟨hblocks, rfl⟩

/-- A sink that takes any bytes in the end has taken them when the write is over, and makes a
flush wait as long at most as there are manners left. -/
theorem putOn_of_accepts {bytes : List UInt8} (haccepts : s.manner.Accepts)
    (hmanners : ∀ m ∈ manners, m.Accepts) (hends : ∃ m ∈ s.manner :: manners, m.IsPrompt) :
    ∃ after left, s.putOn manners bytes = (.done, after, left) ∧
      after.accepted = s.accepted ++ bytes ∧ after.manner.Accepts ∧ (∀ m ∈ left, m.Accepts) ∧
      ∃ m ∈ after.manner :: left, m.IsPrompt := by
  induction manners generalizing s bytes with
  | nil =>
      obtain ⟨taken, rest, after, hbytes, haccepted, hmanner, hwritten⟩ :=
        put_of_accepts haccepts bytes
      have hprompt : s.manner.IsPrompt := by simpa using hends
      rcases hwritten with ⟨rfl, hput⟩ | ⟨hblocks, _⟩
      · rw [List.append_nil] at hbytes
        refine ⟨after, [], by simp only [putOn, hput], by rw [haccepted, hbytes],
          by rwa [hmanner], by simp, after.manner, List.mem_cons_self, by rwa [hmanner]⟩
      · exact absurd hprompt.1 hblocks
  | cons manner later ih =>
      obtain ⟨taken, rest, after, hbytes, haccepted, hmanner, hwritten⟩ :=
        put_of_accepts haccepts bytes
      rcases hwritten with ⟨rfl, hput⟩ | ⟨hblocks, hput⟩
      · rw [List.append_nil] at hbytes
        refine ⟨after, manner :: later, by simp only [putOn, hput], by rw [haccepted, hbytes],
          by rwa [hmanner], hmanners, by rwa [hmanner]⟩
      · obtain ⟨hfirst, hlater⟩ := List.forall_mem_cons.mp hmanners
        have hslow : ¬ s.manner.IsPrompt := fun hprompt => hblocks hprompt.1
        have hends' : ∃ m ∈ manner :: later, m.IsPrompt := by simpa [hslow] using hends
        obtain ⟨last, left, hlast, htaken, hrest⟩ :=
          @ih (after.withManner manner) rest hfirst hlater hends'
        refine ⟨last, left, ?_, ?_, hrest⟩
        · simp only [putOn, hput, hlast]
        · rw [htaken, hbytes, ← List.append_assoc, ← haccepted]
          rfl

/-- A flush succeeds at once, or waits in a manner that makes it wait. -/
theorem flushOut?_of_accepts (haccepts : s.manner.Accepts) :
    (s.flushOut? = some (.ok (), { s with flushes := s.flushes + 1 })) ∨
      (s.flushOut? = none ∧ s.manner.flushBlockAt ≠ none) := by
  by_cases hwaits : isPast s.accepted.length s.manner.flushBlockAt = true
  · refine Or.inr ⟨by simp [flushOut?, flush?, hwaits], fun hnone => ?_⟩
    rw [hnone] at hwaits
    cases hwaits
  · refine Or.inl ?_
    simp only [flushOut?, flush?, flushFault?, haccepts.flushError, if_neg hwaits, ite_self]
    rfl

theorem flushOn_of_accepts (haccepts : s.manner.Accepts) (hmanners : ∀ m ∈ manners, m.Accepts)
    (hends : ∃ m ∈ s.manner :: manners, m.IsPrompt) :
    ∃ after, s.flushOn manners = some (.ok (), after) ∧ after.accepted = s.accepted ∧
      after.manner.Accepts := by
  induction manners generalizing s with
  | nil =>
      have hprompt : s.manner.IsPrompt := by simpa using hends
      rcases flushOut?_of_accepts haccepts with hflush | ⟨_, hblocks⟩
      · exact ⟨_, hflush, rfl, haccepts⟩
      · exact absurd hprompt.2 hblocks
  | cons manner later ih =>
      rcases flushOut?_of_accepts haccepts with hflush | ⟨hwaits, hblocks⟩
      · refine ⟨{ s with flushes := s.flushes + 1 }, ?_, rfl, haccepts⟩
        simp only [flushOn, hflush]
      · obtain ⟨hfirst, hlater⟩ := List.forall_mem_cons.mp hmanners
        have hslow : ¬ s.manner.IsPrompt := fun hprompt => hblocks hprompt.2
        have hends' : ∃ m ∈ manner :: later, m.IsPrompt := by simpa [hslow] using hends
        obtain ⟨after, hflush, htaken, hafter⟩ :=
          @ih (s.withManner manner) hfirst hlater hends'
        exact ⟨after, by simp only [flushOn, hwaits, hflush], htaken, hafter⟩

theorem send_of_accepts (haccepts : s.manner.Accepts) (hmanners : TakesAll manners)
    (i : Instruction) :
    ∃ after, s.send manners i = (.done (), after) ∧ after.accepted = s.accepted ++ i.encode ∧
      after.manner.Accepts := by
  have hends : ∃ m ∈ s.manner :: manners, m.IsPrompt :=
    hmanners.ends.imp fun _ hm => ⟨List.mem_cons_of_mem _ hm.1, hm.2⟩
  obtain ⟨middle, left, hput, haccepted, hmiddle, hleft, hprompt⟩ :=
    putOn_of_accepts haccepts hmanners.accepts hends
  obtain ⟨after, hflush, hkept, hafter⟩ := flushOn_of_accepts hmiddle hleft hprompt
  exact ⟨after, by simp only [send, hput, hflush], hkept.trans haccepted, hafter⟩

theorem sendAll_of_accepts {sends : List (Instruction × List Manner)}
    (haccepts : s.manner.Accepts) (hmanners : ∀ x ∈ sends, TakesAll x.2) :
    ∃ after, s.sendAll sends = (.done (), after) ∧
      after.accepted = s.accepted ++ (sends.map Prod.fst).flatMap encode := by
  induction sends generalizing s with
  | nil => exact ⟨s, rfl, by simp⟩
  | cons first rest ih =>
      obtain ⟨hfirst, hrest⟩ := List.forall_mem_cons.mp hmanners
      obtain ⟨middle, hsend, haccepted, hmiddle⟩ := send_of_accepts haccepts hfirst first.1
      obtain ⟨after, hall, htaken⟩ := ih hmiddle hrest
      refine ⟨after, by simp only [sendAll, hsend, hall], ?_⟩
      rw [htaken, haccepted, List.map_cons, List.flatMap_cons, List.append_assoc]

end Sink

/-! ## No instruction begins another -/

namespace Instruction

variable {i : Instruction}

theorem complete_of_within (hwithin : i.IsWithinLimits) :
    instructionEnd i.encode = .ok (some i.encode.length) := by
  have hend := instructionEnd_encode i []
  rw [List.append_nil, firstFault?_lengths_eq_none_iff.mpr hwithin] at hend
  exact hend

theorem decode_of_within (hwithin : i.IsWithinLimits) : decode i.encode = .ok i := by
  rw [decode_encode_eq, firstFault?_lengths_eq_none_iff.mpr hwithin]

end Instruction

namespace Framing

theorem eq_of_complete_append {first second x y : List UInt8}
    (hfirst : instructionEnd first = .ok (some first.length))
    (hsecond : instructionEnd second = .ok (some second.length))
    (heq : first ++ x = second ++ y) : first = second ∧ x = y := by
  have hsame := instructionEnd_append hfirst x
  rw [heq, instructionEnd_append hsecond] at hsame
  have hlength : second.length = first.length := by simpa using hsame
  exact List.append_inj heq hlength.symm

variable {left : List Instruction}

theorem whole_flatMap_encode (hlimits : ∀ i ∈ left, i.IsWithinLimits) :
    Whole (left.flatMap encode) := by
  induction left with
  | nil => exact .nil
  | cons i later ih =>
      obtain ⟨hfirst, hlater⟩ := List.forall_mem_cons.mp hlimits
      exact .cons (complete_of_within hfirst) (ih hlater)

theorem flatMap_encode_eq_nil_iff (hlimits : ∀ i ∈ left, i.IsWithinLimits) :
    left.flatMap encode = [] ↔ left = [] := by
  refine ⟨fun hnil => ?_, fun hnil => by rw [hnil, List.flatMap_nil]⟩
  cases left with
  | nil => rfl
  | cons i later =>
      have hend := complete_of_within (hlimits i List.mem_cons_self)
      rw [List.flatMap_cons, List.append_eq_nil_iff] at hnil
      rw [hnil.1] at hend
      cases hend

/-- A whole instruction at the front of some encodings is the first of them. -/
theorem exists_head_of_complete {instruction rest : List UInt8}
    (hlimits : ∀ i ∈ left, i.IsWithinLimits)
    (hend : instructionEnd instruction = .ok (some instruction.length))
    (heq : instruction ++ rest = left.flatMap encode) :
    ∃ i later, left = i :: later ∧ instruction = i.encode ∧ rest = later.flatMap encode := by
  cases left with
  | nil =>
      obtain ⟨rfl, -⟩ := List.append_eq_nil_iff.mp heq
      cases hend
  | cons i later =>
      have hfirst := complete_of_within (hlimits i List.mem_cons_self)
      exact ⟨i, later, rfl, eq_of_complete_append hend hfirst heq⟩

/-- Whole instructions at the front of some encodings are the first of them. -/
theorem exists_group_of_whole {batch rest : List UInt8} (hlimits : ∀ i ∈ left, i.IsWithinLimits)
    (hbatch : Whole batch) (heq : batch ++ rest = left.flatMap encode) :
    ∃ group later, left = group ++ later ∧ batch = group.flatMap encode ∧
      rest = later.flatMap encode := by
  induction hbatch generalizing left with
  | nil => exact ⟨[], left, rfl, rfl, heq⟩
  | cons hend _ ih =>
      rw [List.append_assoc] at heq
      obtain ⟨i, behind, rfl, rfl, hbehind⟩ := exists_head_of_complete hlimits hend heq
      obtain ⟨group, later, rfl, rfl, rfl⟩ := ih (List.forall_mem_cons.mp hlimits).2 hbehind
      exact ⟨i :: group, later, rfl, rfl, rfl⟩

theorem wholePart_of_whole {bytes : List UInt8} (hwhole : Whole bytes) :
    wholePart bytes = bytes := by
  have hnone : Unfinished [] := by
    intro rest hscan
    cases hscan
  have hpart := wholePart_append_unfinished hwhole hnone
  rwa [List.append_nil] at hpart

/-- No front of whole instructions goes on with a fault. -/
theorem fault?_openPart_of_whole {bytes more : List UInt8} (hwhole : Whole (bytes ++ more)) :
    fault? (openPart bytes) = none := by
  cases hfault : fault? (openPart bytes) with
  | none => rfl
  | some fault =>
      -- the fault would stay one, yet only whole instructions follow
      obtain ⟨hunfinished, hend⟩ :=
        unfinished_append_of_fault (Reader.instructionEnd_of_fault? hfault) more
      rw [← wholePart_append_openPart bytes, List.append_assoc] at hwhole
      have hall := wholePart_of_whole hwhole
      rw [wholePart_append_unfinished (whole_wholePart bytes) hunfinished] at hall
      rw [List.append_right_eq_self.mp hall.symm] at hend
      cases hend

end Framing

/-! ## Receiving -/

namespace Reader

/-- A source that has not ended brings pieces and then the end of the stream in good order. -/
inductive Ends (source : List Arrival) (ended : Bool) : Prop where
  | coming (pieces : List (List UInt8))
      (hsource : source = pieces.map Arrival.data ++ [.finish]) (hended : ended = false)
  | past (hsource : source = []) (hended : ended = true)

/-- The reader has read no fault, and what it did not hand out is the text of these
instructions. -/
structure Expects (r : Reader) (left : List Instruction) : Prop where
  sound : r.Sound
  pending_eq : r.pending = none
  unread_eq : r.unread = left.flatMap encode
  ends : Ends r.source r.ended

variable {r : Reader} {left : List Instruction}

theorem check_of_no_fault (hr : r.Sound) (hpending : r.pending = none)
    (hfault : fault? (openPart r.buffer) = none) :
    r.check =
      (if wholePart r.buffer = [] then if r.ended then .failed r.endFailure else .waiting
        else .done (), { r with complete := (wholePart r.buffer).length }) := by
  have hscan : r.scan = { r with complete := (wholePart r.buffer).length } := by
    have hcomplete := complete_scan hr
    have hnone := pending_scan hr
    rw [hfault, hpending, Option.map_none, Option.none_or] at hnone
    change { r with complete := r.scan.complete, pending := r.scan.pending } = _
    rw [hcomplete, hnone, hpending]
  unfold check
  dsimp only
  rw [hscan, hpending]
  by_cases hwhole : wholePart r.buffer = []
  · rw [if_pos hwhole, hwhole, List.length_nil, if_neg (Nat.lt_irrefl 0)]
    dsimp only
    cases r.ended <;> rfl
  · rw [if_neg hwhole, if_pos (List.length_pos_of_ne_nil hwhole)]

theorem Ends.receive {arrival : Arrival} {rest : List Arrival}
    (hends : Ends (arrival :: rest) r.ended) :
    r.ended = false ∧ Ends rest (r.receive arrival).ended ∧
      (r.receive arrival).pending = r.pending := by
  cases hends with
  | past hsource _ => cases hsource
  | coming pieces hsource hended =>
      cases pieces with
      | nil =>
          cases hsource
          exact ⟨hended, .past rfl rfl, rfl⟩
      | cons piece later =>
          cases hsource
          exact ⟨hended, .coming later rfl hended, rfl⟩

theorem Ends.ended_of_nil {ended : Bool} (hends : Ends [] ended) : ended = true := by
  cases hends with
  | past _ hended => exact hended
  | coming _ hsource _ => simp at hsource

/-- What a wait comes to if only whole instructions come: it ends with the stream exactly if none
is left. -/
theorem awaitFrom_of_whole {source : List Arrival} (hr : r.Sound) (hpending : r.pending = none)
    (hends : Ends source r.ended) (hwhole : Whole (r.buffer ++ source.flatMap Arrival.bytes)) :
    (awaitFrom source r).1 = (if r.buffer ++ source.flatMap Arrival.bytes = []
        then .failed .streamEnded else .done ()) ∧
      (awaitFrom source r).2.pending = none ∧
      Ends (awaitFrom source r).2.source (awaitFrom source r).2.ended := by
  induction source generalizing r with
  | nil =>
      have hcheck := check_of_no_fault hr hpending (fault?_openPart_of_whole hwhole)
      rw [List.flatMap_nil, List.append_nil] at hwhole ⊢
      rw [wholePart_of_whole hwhole, if_pos hends.ended_of_nil] at hcheck
      simp only [awaitFrom, hcheck]
      refine ⟨?_, hpending, hends⟩
      by_cases hbuffer : r.buffer = []
      · rw [if_pos hbuffer, if_pos hbuffer, endFailure, hbuffer]
        rfl
      · rw [if_neg hbuffer, if_neg hbuffer]
  | cons arrival rest ih =>
      have hcheck := check_of_no_fault hr hpending (fault?_openPart_of_whole hwhole)
      by_cases hpart : wholePart r.buffer = []
      · -- nothing can be told yet, and what has come is kept
        obtain ⟨hended, hends', hpending'⟩ :=
          Ends.receive (r := { r with complete := (wholePart r.buffer).length }) hends
        have hopen : ¬ r.ended = true := by
          rw [hended]
          exact Bool.false_ne_true
        rw [if_pos hpart, if_neg hopen] at hcheck
        have hchecked := hr.check
        rw [hcheck] at hchecked
        have hnext := ih (hchecked.receive arrival) (hpending'.trans hpending) hends'
        simp only [buffer_receive, List.append_assoc] at hnext
        simp only [awaitFrom, hcheck]
        exact hnext hwhole
      · rw [if_neg hpart] at hcheck
        have hbuffer : r.buffer ≠ [] := by
          intro hnil
          rw [hnil] at hpart
          exact hpart rfl
        simp only [awaitFrom, hcheck]
        refine ⟨(if_neg ?_).symm, hpending, hends⟩
        exact fun hnil => hbuffer (List.append_eq_nil_iff.mp hnil).1

theorem Expects.await (hr : r.Expects left) (hlimits : ∀ i ∈ left, i.IsWithinLimits) :
    ∃ next, next.Expects left ∧
      r.await false = (if left = [] then .failed .streamEnded else .done (), next) := by
  have hwhole := whole_flatMap_encode hlimits
  rw [← hr.unread_eq] at hwhole
  obtain ⟨houtcome, hpending, hends⟩ :=
    awaitFrom_of_whole hr.sound hr.pending_eq hr.ends hwhole
  refine ⟨(r.await false).2, ⟨hr.sound.await false, hpending, ?_, hends⟩, ?_⟩
  · rw [unread_await, hr.unread_eq]
  · refine Prod.ext ?_ rfl
    refine Eq.trans houtcome ?_
    change (if r.unread = [] then _ else _) = _
    rw [hr.unread_eq]
    simp only [flatMap_encode_eq_nil_iff hlimits]

/-- One read of what is expected. -/
theorem Expects.readInstruction {i : Instruction} (hr : r.Expects (i :: left))
    (hlimits : ∀ other ∈ i :: left, other.IsWithinLimits) :
    ∃ next, r.readInstruction false = (.done i, next) ∧ next.Expects left := by
  obtain ⟨middle, hmiddle, hawait⟩ := hr.await hlimits
  rw [if_neg (List.cons_ne_nil i left)] at hawait
  have hsome := complete_pos_of_await hawait
  obtain ⟨instruction, rest, hbuffer, _, hend, _, _⟩ :=
    exists_first_of_complete hmiddle.sound hsome
  have hunread := hmiddle.unread_eq
  rw [unread, hbuffer, List.append_assoc] at hunread
  obtain ⟨first, later, hsplit, rfl, hlater⟩ := exists_head_of_complete hlimits hend hunread
  obtain ⟨rfl, rfl⟩ := List.cons_eq_cons.mp hsplit
  have htaken := takeInstruction_eq hbuffer hend
  have hsound := hmiddle.sound.takeInstruction hsome
  rw [decode_of_within (hlimits i List.mem_cons_self)] at htaken
  rw [htaken] at hsound
  refine ⟨_, ?_, ⟨hsound, hmiddle.pending_eq, hlater, hmiddle.ends⟩⟩
  simp only [Reader.readInstruction, hawait, htaken]

theorem Expects.readSome (expired : Bool) (hr : r.Expects left) (hsome : left ≠ [])
    (hlimits : ∀ i ∈ left, i.IsWithinLimits) :
    ∃ group later next, left = group ++ later ∧ group ≠ [] ∧
      r.readSome false expired = (.done (group.flatMap encode), next) ∧ next.Expects later := by
  obtain ⟨middle, hmiddle, hawait⟩ := hr.await hlimits
  rw [if_neg hsome] at hawait
  have hcomplete := complete_pos_of_await hawait
  have hunread := hmiddle.unread_eq
  rw [unread, ← List.take_append_drop middle.complete middle.buffer, List.append_assoc] at hunread
  obtain ⟨group, later, rfl, hbatch, hlater⟩ :=
    exists_group_of_whole hlimits hmiddle.sound.whole_complete hunread
  refine ⟨group, later,
    { middle with buffer := middle.buffer.drop middle.complete, complete := 0 }, rfl, ?_, ?_,
    ⟨sound_of_complete_eq_zero rfl, hmiddle.pending_eq, hlater, hmiddle.ends⟩⟩
  · rintro rfl
    have hlength := congrArg List.length hbatch
    rw [List.length_take_of_le hmiddle.sound.complete_le] at hlength
    exact absurd hlength (Nat.ne_of_gt hcomplete)
  · simp only [Reader.readSome, hawait, hbatch]

/-! ## One read after another -/

/-- A read of one instruction, or of a batch that waits until its time has expired. -/
inductive Pull where
  | instruction
  | batch (expired : Bool)
  deriving DecidableEq, Repr

/-- What such a read gives. -/
inductive Answer where
  | instruction (outcome : Outcome Failure Instruction)
  | batch (outcome : Outcome Failure (List UInt8))
  deriving DecidableEq, Repr

/-- The answer to a read that fails. -/
def Pull.fails : Pull → Failure → Answer
  | .instruction, failure => .instruction (.failed failure)
  | .batch _, failure => .batch (.failed failure)

/-- The bytes of what an answer hands out. -/
def Answer.bytes : Answer → List UInt8
  | .instruction (.done i) => i.encode
  | .batch (.done bytes) => bytes
  | .instruction _ | .batch _ => []

def pull : Pull → Reader → Answer × Reader
  | .instruction, r => (.instruction (r.readInstruction false).1, (r.readInstruction false).2)
  | .batch expired, r => (.batch (r.readSome false expired).1, (r.readSome false expired).2)

/-- What some reads give, one after the other, while the tunnel stays open. -/
def pullAll : List Pull → Reader → List Answer
  | [], _ => []
  | first :: rest, r => (r.pull first).1 :: pullAll rest (r.pull first).2

/-- The answers hand out these instructions: one to whoever asks for one, and the encodings of one
or more, undivided, to whoever asks for a batch. Once none is left, every read finds the end of
the stream. -/
inductive HandOut : List Instruction → List Pull → List Answer → Prop where
  | nil {left : List Instruction} : HandOut left [] []
  | instruction {i : Instruction} {left : List Instruction} {pulls : List Pull}
      {answers : List Answer} (hlater : HandOut left pulls answers) :
      HandOut (i :: left) (.instruction :: pulls) (.instruction (.done i) :: answers)
  | batch {left group later : List Instruction} {expired : Bool} {pulls : List Pull}
      {answers : List Answer} (hleft : left = group ++ later) (hsome : group ≠ [])
      (hlater : HandOut later pulls answers) :
      HandOut left (.batch expired :: pulls) (.batch (.done (group.flatMap encode)) :: answers)
  | ended {pull : Pull} {pulls : List Pull} {answers : List Answer}
      (hlater : HandOut [] pulls answers) :
      HandOut [] (pull :: pulls) (pull.fails .streamEnded :: answers)

theorem Expects.pull_of_nil (hr : r.Expects []) (p : Pull) :
    ∃ next, r.pull p = (p.fails .streamEnded, next) ∧ next.Expects [] := by
  obtain ⟨next, hnext, hawait⟩ := hr.await (by simp)
  rw [if_pos rfl] at hawait
  refine ⟨next, ?_, hnext⟩
  cases p <;> simp only [pull, Pull.fails, Reader.readInstruction, Reader.readSome, hawait]

theorem Expects.handOut (hr : r.Expects left) (hlimits : ∀ i ∈ left, i.IsWithinLimits)
    (pulls : List Pull) : HandOut left pulls (pullAll pulls r) := by
  induction pulls generalizing r left with
  | nil => exact .nil
  | cons first rest ih =>
      unfold pullAll
      by_cases hnone : left = []
      · subst hnone
        obtain ⟨next, hpull, hnext⟩ := hr.pull_of_nil first
        rw [hpull]
        exact .ended (ih hnext hlimits)
      · cases first with
        | instruction =>
            obtain ⟨i, later, rfl⟩ := List.exists_cons_of_ne_nil hnone
            obtain ⟨next, hread, hnext⟩ := hr.readInstruction hlimits
            rw [pull, hread]
            exact .instruction (ih hnext (List.forall_mem_cons.mp hlimits).2)
        | batch expired =>
            obtain ⟨group, later, next, rfl, hgroup, hread, hnext⟩ :=
              hr.readSome expired hnone hlimits
            rw [pull, hread]
            exact .batch rfl hgroup (ih hnext fun i hi => hlimits i (List.mem_append_right _ hi))

/-- More reads than there are instructions hand out all of them, and the last one fails. -/
theorem HandOut.exhausts {pulls : List Pull} {answers : List Answer}
    (hhand : HandOut left pulls answers) (hmore : left.length < pulls.length) :
    answers.flatMap Answer.bytes = left.flatMap encode ∧
      ∃ earlier last, answers = earlier ++ [Pull.fails last .streamEnded] := by
  induction hhand with
  | nil => simp at hmore
  | instruction hlater ih =>
      obtain ⟨hbytes, earlier, last, rfl⟩ := ih (by simpa using hmore)
      refine ⟨?_, _, last, (List.cons_append ..).symm⟩
      rw [List.flatMap_cons, hbytes, List.flatMap_cons]
      rfl
  | @batch left group later expired pulls answers hleft hsome _ ih =>
      subst hleft
      have hpositive := List.length_pos_of_ne_nil hsome
      simp only [List.length_append, List.length_cons] at hmore
      obtain ⟨hbytes, earlier, last, rfl⟩ := ih (by omega)
      refine ⟨?_, _, last, (List.cons_append ..).symm⟩
      rw [List.flatMap_cons, hbytes, List.flatMap_append]
      rfl
  | @ended first pulls answers hlater ih =>
      have hnone : (first.fails .streamEnded).bytes = [] := by cases first <;> rfl
      cases pulls with
      | nil =>
          cases hlater
          refine ⟨?_, [], first, rfl⟩
          rw [List.flatMap_cons, hnone]
          rfl
      | cons second others =>
          obtain ⟨hbytes, earlier, last, rfl⟩ := ih (Nat.succ_pos _)
          refine ⟨?_, _, last, (List.cons_append ..).symm⟩
          rw [List.flatMap_cons, hnone, hbytes]
          rfl

/-- Who asks for one instruction after the other gets them in order, and then the end. -/
theorem HandOut.one_by_one {answers : List Answer}
    (hhand : HandOut left (List.replicate (left.length + 1) .instruction) answers) :
    answers = left.map (fun i => .instruction (.done i)) ++
      [.instruction (.failed .streamEnded)] := by
  induction left generalizing answers with
  | nil =>
      cases hhand with
      | ended hlater =>
          cases hlater
          rfl
  | cons i left ih =>
      cases hhand with
      | instruction hlater => rw [ih hlater, List.map_cons, List.cons_append]

theorem expects_ofPieces {pieces : List (List UInt8)}
    (hpieces : pieces.flatten = left.flatMap encode) : (ofPieces pieces none).Expects left := by
  refine ⟨sound_of_complete_eq_zero rfl, rfl, ?_, .coming pieces rfl rfl⟩
  have hbytes : (pieces.map Arrival.data).flatMap Arrival.bytes = pieces.flatten := by
    rw [List.flatMap_map]
    exact List.flatMap_id
  rw [← hpieces, ← hbytes]
  simp [unread, ofPieces, Arrival.ofEnding, Arrival.bytes]

/-- Instructions within the limits are sent to a sink that takes any bytes in the end, however few
at a time. Then all of them are sent, and however what the sink has taken is cut into reads,
reading hands them out in order: one by one, or undivided in batches, in any mixture, and
after the last of them the connection is closed. -/
theorem sent_is_received {sends : List (Instruction × List Sink.Manner)} {s : Sink}
    (hlimits : ∀ x ∈ sends, x.1.IsWithinLimits) (haccepts : s.manner.Accepts)
    (hmanners : ∀ x ∈ sends, Sink.TakesAll x.2) :
    ∃ after, s.sendAll sends = (.done (), after) ∧
      ∀ pieces : List (List UInt8), after.accepted = s.accepted ++ pieces.flatten →
        (∀ pulls, HandOut (sends.map Prod.fst) pulls (pullAll pulls (ofPieces pieces none)) ∧
          (sends.length < pulls.length →
            (pullAll pulls (ofPieces pieces none)).flatMap Answer.bytes = pieces.flatten ∧
              ∃ earlier last, pullAll pulls (ofPieces pieces none) =
                earlier ++ [Pull.fails last .streamEnded])) ∧
        pullAll (List.replicate (sends.length + 1) .instruction) (ofPieces pieces none) =
          sends.map (fun x => .instruction (.done x.1)) ++
            [.instruction (.failed .streamEnded)] ∧
        Failure.streamEnded.isClosed = true := by
  obtain ⟨after, hsend, haccepted⟩ := Sink.sendAll_of_accepts haccepts hmanners
  refine ⟨after, hsend, fun pieces hpieces => ?_⟩
  rw [haccepted] at hpieces
  have hbytes : pieces.flatten = (sends.map Prod.fst).flatMap encode :=
    (List.append_cancel_left hpieces).symm
  have hwithin : ∀ i ∈ sends.map Prod.fst, i.IsWithinLimits := List.forall_mem_map.mpr hlimits
  have hhand := (expects_ofPieces hbytes).handOut hwithin
  refine ⟨fun pulls => ⟨hhand pulls, fun hmore => ?_⟩, ?_, rfl⟩
  · rw [hbytes]
    exact (hhand pulls).exhausts (by simpa using hmore)
  · have hone := hhand (List.replicate ((sends.map Prod.fst).length + 1) .instruction)
    simpa [Function.comp_def] using hone.one_by_one

/-- Two instructions to a sink that takes two bytes at a time up to the third, then one at a time
up to the seventh, and then three, and that makes the first flush wait. -/
def sendsInPieces : List (Instruction × List Sink.Manner) :=
  [(⟨"a", ["日"]⟩, [{ maxWrite := some 1, blockAt := some 7 },
      { maxWrite := some 3, flushBlockAt := some 8 }, { maxWrite := some 3 }]),
    (⟨"", []⟩, [{}])]

theorem sent_is_received_in_pieces :
    ∃ after, Sink.sendAll sendsInPieces { manner := { maxWrite := some 2, blockAt := some 3 } } =
        (.done (), after) ∧
      pullAll [.instruction, .instruction, .instruction]
          (ofPieces [after.accepted.take 8, after.accepted.drop 8] none) =
        [.instruction (.done ⟨"a", ["日"]⟩), .instruction (.done ⟨"", []⟩),
          .instruction (.failed .streamEnded)] := by
  obtain ⟨after, hsend, hreceive⟩ :=
    @sent_is_received sendsInPieces { manner := { maxWrite := some 2, blockAt := some 3 } }
      (by decide) (by decide) (by decide)
  exact ⟨after, hsend, (hreceive [after.accepted.take 8, after.accepted.drop 8] (by simp)).2.1⟩

end Reader

end LongPollTunnel

import LongPollTunnel.Proofs.Waiting

/-! # Sources of any kind

The stream of a source is the data that come before anything else does, and the source ends with
what comes then. Main statements: a reader that has not come upon the end of its source takes the
first instruction off its stream, or says what is the matter with it, however the stream is cut;
and it hands out the rest of the stream in batches from there on.
-/

namespace LongPollTunnel

open Framing Instruction

namespace Outcome

variable {ε α : Type}

/-- The outcome of a call that has nothing to give: it waits if there is no failure. -/
def ofFailure? : Option ε → Outcome ε α
  | some failure => .failed failure
  | none => .waiting

@[simp] theorem ofFailure?_eq_failed_iff {failure? : Option ε} {failure : ε} :
    (ofFailure? failure? : Outcome ε α) = .failed failure ↔ failure? = some failure := by
  cases failure? <;> simp [ofFailure?]

@[simp] theorem ofFailure?_eq_waiting_iff {failure? : Option ε} :
    (ofFailure? failure? : Outcome ε α) = .waiting ↔ failure? = none := by
  cases failure? <;> simp [ofFailure?]

@[simp] theorem ofFailure?_ne_done (failure? : Option ε) (value : α) :
    ofFailure? failure? ≠ .done value := by
  cases failure? <;> nofun

end Outcome

namespace Arrival

/-- The bytes that come before anything else does. -/
def stream : List Arrival → List UInt8
  | .data bytes :: rest => bytes ++ stream rest
  | .finish :: _ | .fail _ :: _ | [] => []

/-- How a source ends: with a read error for this reason or in good order, unless more may come. -/
def ending? : List Arrival → Option (Option String)
  | .data _ :: rest => ending? rest
  | .finish :: _ => some none
  | .fail reason :: _ => some (some reason)
  | [] => none

variable {source : List Arrival}

theorem stream_append (hopen : ending? source = none) (more : List Arrival) :
    stream (source ++ more) = stream source ++ stream more := by
  induction source with
  | nil => rfl
  | cons arrival rest ih =>
      cases arrival with
      | data bytes =>
          rw [List.cons_append, stream, stream, ih hopen, List.append_assoc]
      | finish => cases hopen
      | fail reason => cases hopen

/-- Nothing comes behind the end of a source. -/
theorem append_of_ended (hended : ending? source ≠ none) (more : List Arrival) :
    stream (source ++ more) = stream source ∧ ending? (source ++ more) = ending? source := by
  induction source with
  | nil => exact absurd rfl hended
  | cons arrival rest ih =>
      cases arrival with
      | data bytes =>
          obtain ⟨hstream, hending⟩ := ih hended
          exact ⟨congrArg (bytes ++ ·) hstream, hending⟩
      | finish => exact ⟨rfl, rfl⟩
      | fail reason => exact ⟨rfl, rfl⟩

end Arrival

namespace Reader

/-- What is left to be read before the source ends. -/
def stream (r : Reader) : List UInt8 :=
  r.buffer ++ Arrival.stream r.source

def ending? (r : Reader) : Option (Option String) :=
  Arrival.ending? r.source

/-- What is the matter with bytes that no instruction stands in front of; while more may come, only
a fault is. -/
def lastWord? (rest : List UInt8) : Option (Option String) → Option Failure
  | some ending => some (firstFailure rest ending)
  | none => (fault? rest).map Failure.ofFault

/-- The instruction in front of a stream and what follows it, or what there is to say instead. -/
def firstInstruction (stream : List UInt8) (ending : Option (Option String)) :
    Outcome Failure (Instruction × List UInt8) :=
  match instructionEnd stream with
  | .ok (some length) =>
    match decode (stream.take length) with
    | .ok i => .done (i, stream.drop length)
    | .error fault => .failed (.ofFault fault)
  | .ok none | .error _ => .ofFailure? (lastWord? stream ending)

/-- The reader has not come upon the end of its source, and what it is to report is a fault in what
it has. -/
structure Underway (r : Reader) : Prop where
  sound : r.Sound
  pending_eq : r.pending = none ∨ r.pending = (fault? (openPart r.buffer)).map Failure.ofFault
  ended_eq : r.ended = false

theorem underway_fresh (source : List Arrival) (idleTimeout : Option Nat) :
    ({ source, idleTimeout } : Reader).Underway :=
  ⟨sound_of_complete_eq_zero rfl, Or.inl rfl, rfl⟩

variable {r next : Reader} {stream bytes rest : List UInt8} {ending : Option (Option String)}
  {source : List Arrival}

/-! ## The front of a stream -/

/-- A fault decides before the source has ended. -/
theorem lastWord?_of_fault {fault : Fault} (hend : instructionEnd bytes = .error fault)
    (ending : Option (Option String)) : lastWord? bytes ending = some (.ofFault fault) := by
  cases ending with
  | none => simp only [lastWord?, fault?, hend, Option.map_some]
  | some ending => simp only [lastWord?, firstFailure, hend]

theorem instructionEnd_append_of_some {length : Nat}
    (hend : instructionEnd bytes = .ok (some length)) (more : List UInt8) :
    instructionEnd (bytes ++ more) = .ok (some length) := by
  obtain ⟨instruction, rest, rfl, rfl, hinstruction⟩ := exists_instruction_of_instructionEnd hend
  rw [List.append_assoc]
  exact instructionEnd_append hinstruction _

/-- An instruction that is taken off a stream is its front. -/
theorem exists_front_of_firstInstruction {i : Instruction}
    (hfirst : firstInstruction stream ending = .done (i, rest)) :
    ∃ front, stream = front ++ rest ∧ instructionEnd front = .ok (some front.length) ∧
      decode front = .ok i := by
  unfold firstInstruction at hfirst
  split at hfirst
  next length hend =>
    obtain ⟨front, later, rfl, rfl, hfront⟩ := exists_instruction_of_instructionEnd hend
    rw [List.take_left, List.drop_left] at hfirst
    split at hfirst
    next found hdecode =>
      cases hfirst
      exact ⟨front, rfl, hfront, hdecode⟩
    · cases hfirst
  · exact absurd hfirst (Outcome.ofFailure?_ne_done _ _)
  · exact absurd hfirst (Outcome.ofFailure?_ne_done _ _)

/-- An instruction at the front is read, and what follows is left. -/
theorem firstInstruction_of_front {front : List UInt8} {i : Instruction}
    (hend : instructionEnd front = .ok (some front.length)) (hdecode : decode front = .ok i)
    (rest : List UInt8) (ending : Option (Option String)) :
    firstInstruction (front ++ rest) ending = .done (i, rest) := by
  simp only [firstInstruction, instructionEnd_append hend rest, List.take_left, List.drop_left,
    hdecode]

/-- What can be told of a stream does not change when more of it comes. -/
theorem firstInstruction_append {i : Instruction}
    (hfirst : firstInstruction stream ending = .done (i, rest)) (more : List UInt8)
    (later : Option (Option String)) :
    firstInstruction (stream ++ more) later = .done (i, rest ++ more) := by
  obtain ⟨front, rfl, hend, hdecode⟩ := exists_front_of_firstInstruction hfirst
  rw [List.append_assoc]
  exact firstInstruction_of_front hend hdecode _ _

theorem exists_end_of_fault?_eq_none (hnone : fault? bytes = none) :
    ∃ found, instructionEnd bytes = .ok found := by
  cases hend : instructionEnd bytes with
  | error fault => simp [fault?_of_instructionEnd hend] at hnone
  | ok found => exact ⟨found, rfl⟩

/-! ## What a wait comes to -/

/-- What a wait for an instruction in front of a stream comes to. -/
def awaited (stream : List UInt8) (ending : Option (Option String)) : Outcome Failure Unit :=
  match instructionEnd stream with
  | .ok (some _) => .done ()
  | .ok none | .error _ => .ofFailure? (lastWord? stream ending)

/-- The reader is underway with the same stream before it. -/
structure Follows (next : Reader) (stream : List UInt8) (ending : Option (Option String)) :
    Prop where
  underway : next.Underway
  stream_eq : next.stream = stream
  ending_eq : next.ending? = ending

/-- A look at the buffer keeps a reader underway. -/
theorem Underway.scan (hr : r.Underway) : r.scan.Underway where
  sound := hr.sound.scan
  pending_eq := by
    rw [pending_scan hr.sound, buffer_scan]
    rcases hr.pending_eq with hnone | hfault
    · exact Or.inr (by rw [hnone, Option.none_or])
    · exact Or.inr (by rw [hfault, Option.or_self])
  ended_eq := hr.ended_eq

/-- What a reader that is underway can say by itself, and whether it keeps underway. -/
theorem Underway.check (hr : r.Underway) :
    (∃ length, instructionEnd r.buffer = .ok (some length) ∧ r.check = (.done (), r.scan)) ∨
      (∃ fault next, instructionEnd r.buffer = .error fault ∧
        r.check = (.failed (.ofFault fault), next)) ∨
      instructionEnd r.buffer = .ok none ∧ r.check = (.waiting, r.scan) ∧ r.scan.Spent := by
  cases hend : instructionEnd r.buffer with
  | error fault =>
      have hnone : ∀ length, instructionEnd r.buffer ≠ .ok (some length) := by
        rw [hend]
        nofun
      have hwhole := wholePart_of_unfinished (unfinished_of_instructionEnd hnone)
      have hpending := pending_scan hr.sound
      have hcomplete := complete_scan hr.sound
      rw [hwhole, List.length_nil] at hcomplete
      rw [openPart_eq_self hwhole, fault?_of_instructionEnd hend] at hpending
      have hsome : r.scan.pending = some (.ofFault fault) := by
        rw [hpending]
        rcases hr.pending_eq with hnone | hfault
        · rw [hnone]
          rfl
        · rw [hfault, openPart_eq_self hwhole, fault?_of_instructionEnd hend]
          rfl
      refine Or.inr (Or.inl ⟨fault, { r.scan with pending := none }, rfl, ?_⟩)
      unfold Reader.check
      dsimp only
      rw [if_neg (Nat.not_lt.mpr (Nat.le_of_eq hcomplete)), hsome]
  | ok found =>
      cases found with
      | some length =>
          refine Or.inl ⟨length, rfl, ?_⟩
          have hsome : 0 < r.scan.complete := by
            rw [complete_scan hr.sound]
            exact List.length_pos_of_ne_nil (wholePart_ne_nil_of_instructionEnd hend)
          unfold Reader.check
          dsimp only
          rw [if_pos hsome]
      | none =>
          have hnot : ∀ length, instructionEnd r.buffer ≠ .ok (some length) := by
            rw [hend]
            nofun
          have hwhole := wholePart_of_unfinished (unfinished_of_instructionEnd hnot)
          have hnofault : fault? r.buffer = none := by simp only [fault?, hend]
          have hspent : r.scan.Spent := by
            apply spent_scan hr.sound
            have hcomplete := complete_scan hr.sound
            have hpending := pending_scan hr.sound
            rw [hwhole, List.length_nil] at hcomplete
            have hnone : r.pending = none := by
              rcases hr.pending_eq with hnone | hfault
              · exact hnone
              · rw [hfault, openPart_eq_self hwhole, hnofault, Option.map_none]
            rw [openPart_eq_self hwhole, hnofault, hnone] at hpending
            rw [hasNews, hcomplete, hpending]
            rfl
          refine Or.inr (Or.inr ⟨rfl, ?_, hspent⟩)
          have hcheck := hspent.check_eq
          rwa [check_scan hr.sound, ended_scan, hr.ended_eq] at hcheck

theorem Underway.receive (hr : r.Underway) (hnone : r.pending = none) (bytes : List UInt8) :
    (r.receive (.data bytes)).Underway :=
  ⟨hr.sound.receive _, Or.inl hnone, hr.ended_eq⟩

/-- A reader that has nothing to say and then comes upon the end of its source. -/
theorem Spent.awaitFrom_of_ended (hr : r.Spent) (hended : r.ended = true) (source : List Arrival) :
    (awaitFrom source r).1 = .failed r.endFailure := by
  have hcheck := hr.check_eq
  rw [hended, if_pos rfl] at hcheck
  cases source with
  | nil => rw [awaitFrom, hcheck]
  | cons arrival rest => simp only [awaitFrom, hcheck]

/-- The end of the source is reported when nothing is left. -/
theorem Spent.awaitFrom_finish (hr : r.Spent) (source : List Arrival) :
    (awaitFrom source (r.receive .finish)).1 = .failed (firstFailure r.buffer none) := by
  have hspent : (r.receive .finish).Spent :=
    ⟨hr.complete_eq, hr.pending_eq, hr.wholePart_eq, hr.fault_eq⟩
  obtain ⟨found, hend⟩ := exists_end_of_fault?_eq_none hr.fault_eq
  rw [hspent.awaitFrom_of_ended rfl, firstFailure, hend]
  rfl

/-- So is a failure of the source. -/
theorem Spent.awaitFrom_fail (hr : r.Spent) (reason : String) (source : List Arrival) :
    (awaitFrom source (r.receive (.fail reason))).1 =
      .failed (firstFailure r.buffer (some reason)) := by
  obtain ⟨found, hend⟩ := exists_end_of_fault?_eq_none hr.fault_eq
  have hsound : (r.receive (.fail reason)).Sound := hr.sound.receive _
  have hcheck := fst_check_of_wholePart_eq_nil hsound hr.wholePart_eq
  have hfirst : firstFailure r.buffer (some reason) = .reading reason := by
    simp only [firstFailure, hend]
  rw [hfirst]
  cases source with
  | nil =>
      rw [awaitFrom, hcheck]
      rfl
  | cons arrival rest =>
      unfold awaitFrom
      split
      next next heq =>
        rw [heq] at hcheck
        cases hcheck
      next outcome next _ heq =>
        rw [heq] at hcheck
        exact hcheck

/-- What a wait comes to is a matter of the stream and of how it ends. If it finds an instruction,
the reader stays underway. -/
theorem Underway.awaitFrom (hr : r.Underway) (source : List Arrival) :
    (awaitFrom source r).1 =
        awaited (r.buffer ++ Arrival.stream source) (Arrival.ending? source) ∧
      ((awaitFrom source r).1 = .done () →
        (awaitFrom source r).2.Follows (r.buffer ++ Arrival.stream source)
          (Arrival.ending? source)) := by
  induction source generalizing r with
  | nil =>
      rw [Arrival.stream, List.append_nil, awaitFrom]
      rcases hr.check with ⟨length, hend, hcheck⟩ | ⟨fault, next, hend, hcheck⟩ | ⟨hend, hcheck, _⟩
      · rw [hcheck]
        refine ⟨by simp only [awaited, hend], fun _ => ⟨?_, List.append_nil _, rfl⟩⟩
        exact ⟨⟨hr.scan.sound.complete_le, hr.scan.sound.whole_complete⟩, hr.scan.pending_eq,
          hr.ended_eq⟩
      · rw [hcheck]
        refine ⟨?_, fun hdone => by cases hdone⟩
        simp only [awaited, hend, lastWord?_of_fault hend, Outcome.ofFailure?]
      · rw [hcheck]
        refine ⟨?_, fun hdone => by cases hdone⟩
        simp only [awaited, hend, lastWord?, Arrival.ending?, fault?, Option.map_none,
          Outcome.ofFailure?]
  | cons arrival rest ih =>
      rcases hr.check with
        ⟨length, hend, hcheck⟩ | ⟨fault, next, hend, hcheck⟩ | ⟨hend, hcheck, hspent⟩
      · simp only [Reader.awaitFrom, hcheck]
        refine ⟨by simp only [awaited, instructionEnd_append_of_some hend], fun _ => ⟨?_, rfl, rfl⟩⟩
        exact ⟨⟨hr.scan.sound.complete_le, hr.scan.sound.whole_complete⟩, hr.scan.pending_eq,
          hr.ended_eq⟩
      · simp only [Reader.awaitFrom, hcheck]
        have hmore := (unfinished_append_of_fault hend (Arrival.stream (arrival :: rest))).2
        refine ⟨?_, fun hdone => by cases hdone⟩
        simp only [awaited, hmore, lastWord?_of_fault hmore, Outcome.ofFailure?]
      · simp only [Reader.awaitFrom, hcheck]
        cases arrival with
        | data bytes =>
            have hnext := ih (hr.scan.receive hspent.pending_eq bytes)
            rw [buffer_receive, List.append_assoc] at hnext
            exact hnext
        | finish =>
            rw [hspent.awaitFrom_finish, Arrival.stream, List.append_nil]
            refine ⟨?_, fun hdone => by cases hdone⟩
            simp only [awaited, hend, lastWord?, Arrival.ending?, buffer_scan, Outcome.ofFailure?]
        | fail reason =>
            rw [hspent.awaitFrom_fail, Arrival.stream, List.append_nil]
            refine ⟨?_, fun hdone => by cases hdone⟩
            simp only [awaited, hend, lastWord?, Arrival.ending?, buffer_scan, Outcome.ofFailure?]

/-- A wait comes to what the whole stream says, not how it is cut. -/
theorem Underway.await (hr : r.Underway) :
    (r.await false).1 = awaited r.stream r.ending? ∧
      ((r.await false).1 = .done () → (r.await false).2.Follows r.stream r.ending?) :=
  hr.awaitFrom r.source

/-! ## One instruction -/

/-- What a read of one instruction comes to. -/
inductive Reads (r : Reader) : Outcome Failure Instruction × Reader → Prop where
  | done {i : Instruction} {rest : List UInt8} {next : Reader}
      (hfirst : firstInstruction r.stream r.ending? = .done (i, rest))
      (hnext : next.Follows rest r.ending?) : Reads r (.done i, next)
  | failed {failure : Failure} {next : Reader}
      (hfirst : firstInstruction r.stream r.ending? = .failed failure) :
      Reads r (.failed failure, next)
  | waiting {next : Reader} (hfirst : firstInstruction r.stream r.ending? = .waiting) :
      Reads r (.waiting, next)

theorem Underway.takeInstruction (hr : r.Underway) (hsome : 0 < r.complete) :
    r.Reads r.takeInstruction := by
  obtain ⟨instruction, rest, hbuffer, _, hend, hle, hwhole⟩ :=
    exists_first_of_complete hr.sound hsome
  have hstream : r.stream = instruction ++ (rest ++ Arrival.stream r.source) := by
    rw [stream, hbuffer, List.append_assoc]
  have htaken := takeInstruction_eq hbuffer hend
  have hsound := hr.sound.takeInstruction hsome
  rw [htaken] at hsound ⊢
  cases hdecode : decode instruction with
  | error fault =>
      refine .failed ?_
      rw [hstream]
      simp only [firstInstruction, instructionEnd_append hend, List.take_left, hdecode]
  | ok i =>
      have hfirst := firstInstruction_of_front hend hdecode (rest ++ Arrival.stream r.source) r.ending?
      refine .done (hstream ▸ hfirst) ⟨⟨hsound, ?_, hr.ended_eq⟩, rfl, rfl⟩
      have hone : Whole (instruction ++ []) := .cons hend .nil
      rw [List.append_nil] at hone
      have hopen := openPart_append hone rest
      rw [← hbuffer] at hopen
      exact hopen ▸ hr.pending_eq

/-- Where no instruction is found, both a wait and a read of one have the same to say. -/
theorem firstInstruction_of_awaited (hlast : awaited stream ending ≠ .done ()) :
    firstInstruction stream ending = .ofFailure? (lastWord? stream ending) ∧
      awaited stream ending = .ofFailure? (lastWord? stream ending) := by
  unfold awaited at hlast ⊢
  unfold firstInstruction
  split
  next hend => simp [hend] at hlast
  · exact ⟨rfl, rfl⟩
  · exact ⟨rfl, rfl⟩

/-- One instruction after the other is read from the stream. -/
theorem Underway.readInstruction (hr : r.Underway) : r.Reads (r.readInstruction false) := by
  obtain ⟨houtcome, hfollows⟩ := hr.await
  unfold Reader.readInstruction
  cases hawait : r.await false with
  | mk outcome next =>
      rw [hawait] at houtcome hfollows
      cases outcome with
      | done value =>
          obtain ⟨hnext, hstream, hending⟩ := hfollows rfl
          have htaken := hnext.takeInstruction (complete_pos_of_await hawait)
          dsimp only
          generalize next.takeInstruction = taken at htaken ⊢
          cases htaken with
          | done hfirst hlater =>
              rw [hstream, hending] at hfirst
              rw [hending] at hlater
              exact .done hfirst hlater
          | failed hfirst =>
              rw [hstream, hending] at hfirst
              exact .failed hfirst
          | waiting hfirst =>
              rw [hstream, hending] at hfirst
              exact .waiting hfirst
      | failed failure =>
          have hnot : awaited r.stream r.ending? ≠ .done () := by
            rw [← houtcome]
            nofun
          obtain ⟨hfirst, hlast⟩ := firstInstruction_of_awaited hnot
          rw [← houtcome, eq_comm, Outcome.ofFailure?_eq_failed_iff] at hlast
          exact .failed (by rw [hfirst, hlast, Outcome.ofFailure?])
      | waiting =>
          have hnot : awaited r.stream r.ending? ≠ .done () := by
            rw [← houtcome]
            nofun
          obtain ⟨hfirst, hlast⟩ := firstInstruction_of_awaited hnot
          rw [← houtcome, eq_comm, Outcome.ofFailure?_eq_waiting_iff] at hlast
          exact .waiting (by rw [hfirst, hlast, Outcome.ofFailure?])

/-! ## Batches -/

theorem openPart_drop (hr : r.Sound) : openPart (r.buffer.drop r.complete) = openPart r.buffer := by
  have hopen := openPart_append hr.whole_complete (r.buffer.drop r.complete)
  rw [List.take_append_drop] at hopen
  exact hopen.symm

/-- A read of a batch hands out whole instructions from the front of the stream, or says what is
the matter with it. -/
theorem Underway.readSome (hr : r.Underway) :
    (∃ batch next, r.readSome false false = (.done batch, next) ∧ batch ≠ [] ∧ Whole batch ∧
        next.Follows next.stream r.ending? ∧ r.stream = batch ++ next.stream) ∨
      Unfinished r.stream ∧
        (r.readSome false false).1 = .ofFailure? (lastWord? r.stream r.ending?) := by
  obtain ⟨houtcome, hfollows⟩ := hr.await
  unfold Reader.readSome
  cases hawait : r.await false with
  | mk outcome next =>
      rw [hawait] at houtcome hfollows
      cases outcome with
      | done value =>
          obtain ⟨hnext, hstream, hending⟩ := hfollows rfl
          have hsome := take_complete_ne_nil hnext.sound (complete_pos_of_await hawait)
          refine Or.inl ⟨_, _, rfl, hsome, hnext.sound.whole_complete, ⟨⟨?_, ?_, ?_⟩, rfl, ?_⟩, ?_⟩
          · exact sound_of_complete_eq_zero rfl
          · change next.pending = none ∨
              next.pending = (fault? (openPart (next.buffer.drop next.complete))).map Failure.ofFault
            rw [openPart_drop hnext.sound]
            exact hnext.pending_eq
          · exact hnext.ended_eq
          · exact hending
          · rw [← hstream, stream, stream, ← List.append_assoc, List.take_append_drop]
      | failed failure =>
          have hnot : awaited r.stream r.ending? ≠ .done () := by
            rw [← houtcome]
            nofun
          obtain ⟨_, hlast⟩ := firstInstruction_of_awaited hnot
          refine Or.inr ⟨unfinished_of_instructionEnd ?_, ?_⟩
          · intro length hend
            simp [awaited, hend] at houtcome
          · rw [← houtcome, eq_comm, Outcome.ofFailure?_eq_failed_iff] at hlast
            rw [hlast, Outcome.ofFailure?]
      | waiting =>
          have hnot : awaited r.stream r.ending? ≠ .done () := by
            rw [← houtcome]
            nofun
          obtain ⟨_, hlast⟩ := firstInstruction_of_awaited hnot
          refine Or.inr ⟨unfinished_of_instructionEnd ?_, ?_⟩
          · intro length hend
            simp [awaited, hend] at houtcome
          · rw [← houtcome, eq_comm, Outcome.ofFailure?_eq_waiting_iff] at hlast
            rw [hlast, Outcome.ofFailure?]
            rfl

/-- The batches that a reader hands out are the whole instructions of its stream, and then it says
what is the matter with the rest. -/
theorem Underway.exists_batches (hr : r.Underway) :
    ∃ batches : List (List UInt8),
      batches.flatten = wholePart r.stream ∧
      (∀ batch ∈ batches, batch ≠ [] ∧ Whole batch) ∧
      (readTimes (batches.length + 1) r).1 = batches.map Outcome.done ++
        [.ofFailure? (lastWord? (openPart r.stream) r.ending?)] := by
  -- a batch is not empty, so each read leaves less of the stream
  induction hlength : r.stream.length using Nat.strongRecOn generalizing r with
  | _ length ih =>
      subst hlength
      rcases hr.readSome with hdelivers | ⟨hunfinished, hread⟩
      · obtain ⟨batch, next, hread, hsome, hbatch, hnext, hsplit⟩ := hdelivers
        have hshorter : next.stream.length < r.stream.length := by
          have hpositive := List.length_pos_of_ne_nil hsome
          rw [hsplit, List.length_append]
          omega
        obtain ⟨batches, hflatten, hall, hreads⟩ := ih _ hshorter hnext.underway rfl
        rw [hsplit, wholePart_append hbatch, openPart_append hbatch]
        refine ⟨batch :: batches, ?_, ?_, ?_⟩
        · rw [List.flatten_cons, hflatten]
        · exact List.forall_mem_cons.mpr ⟨⟨hsome, hbatch⟩, hall⟩
        · rw [hnext.ending_eq] at hreads
          rw [List.length_cons, fst_readTimes_succ, hread]
          dsimp only
          rw [hreads, List.map_cons, List.cons_append]
      · have hopen := openPart_append_unfinished .nil hunfinished
        rw [List.nil_append] at hopen
        refine ⟨[], by rw [wholePart_of_unfinished hunfinished, List.flatten_nil], nofun, ?_⟩
        rw [hopen]
        simp only [List.length_nil, readTimes, hread, List.map_nil, List.nil_append]

end Reader

end LongPollTunnel

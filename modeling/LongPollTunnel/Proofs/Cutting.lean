import LongPollTunnel.Proofs.Reading

/-! # A stream may be cut anywhere

A fresh reader is asked for one batch after another while its stream comes in pieces. Main
statement: however the stream is cut, the batches are its longest prefix of whole
instructions, and the failure that ends them depends only on what follows that prefix and
on how the stream ends; a fault is reported again and again.
-/

namespace LongPollTunnel

open Framing

namespace Reader

/-- What so many reads of a batch give, one after the other, while the tunnel stays open
and time does not matter. -/
def readTimes : Nat → Reader → List (Outcome Failure (List UInt8)) × Reader
  | 0, r => ([], r)
  | count + 1, r =>
    let (outcome, r) := r.readSome false false
    let (later, r) := readTimes count r
    (outcome :: later, r)

/-- The failure that reports what follows the last whole instruction of a stream: a fault,
or else the read error, or else whether the stream ended between two instructions. -/
def firstFailure (rest : List UInt8) (ending : Option String) : Failure :=
  match instructionEnd rest with
  | .error fault => .ofFault fault
  | .ok _ =>
    match ending with
    | some reason => .reading reason
    | none => if rest.isEmpty then .streamEnded else .streamTruncated

/-- A reader that nobody has read from, of a stream that comes in these pieces. -/
def ofPieces (pieces : List (List UInt8)) (ending : Option String) : Reader where
  source := pieces.map Arrival.data ++ [Arrival.ofEnding ending]

/-- The reader is between two reads, and these pieces are still to come. -/
structure Poised (r : Reader) (pieces : List (List UInt8)) (ending : Option String) :
    Prop where
  source_eq : r.source = pieces.map Arrival.data ++ [Arrival.ofEnding ending]
  complete_eq : r.complete = 0
  pending_eq : r.pending = none ∨ r.pending = (fault? r.buffer).map Failure.ofFault
  ended_eq : r.ended = false

namespace Poised

variable {r : Reader} {pieces : List (List UInt8)} {ending : Option String}

theorem sound (hr : r.Poised pieces ending) : r.Sound :=
  sound_of_complete_eq_zero hr.complete_eq

end Poised

theorem poised_ofPieces (pieces : List (List UInt8)) (ending : Option String) :
    (ofPieces pieces ending).Poised pieces ending :=
  ⟨rfl, rfl, Or.inl rfl, rfl⟩

/-! ## One look at the buffer -/

theorem fault?_eq_none_of_wholePart_ne_nil {bytes : List UInt8} (hwhole : wholePart bytes ≠ []) :
    fault? bytes = none := by
  unfold fault?
  split
  next fault hfault =>
    have hparts := unfinished_append_of_fault hfault []
    rw [List.append_nil] at hparts
    have hnone := wholePart_append_unfinished .nil hparts.1
    exact absurd hnone hwhole
  · rfl

theorem openPart_eq_self {bytes : List UInt8} (hwhole : wholePart bytes = []) :
    openPart bytes = bytes := by
  have hparts := wholePart_append_openPart bytes
  rwa [hwhole, List.nil_append] at hparts

variable {r : Reader} {pieces : List (List UInt8)} {ending : Option String}

theorem check_of_wholePart_ne_nil (hr : r.Poised pieces ending)
    (hwhole : wholePart r.buffer ≠ []) :
    r.check = (.done (), { r with
      complete := (wholePart r.buffer).length
      pending := (fault? (openPart r.buffer)).map Failure.ofFault }) := by
  have hcomplete := complete_scan hr.sound
  have hpending := pending_scan hr.sound
  have hnone : r.pending = none := by
    rcases hr.pending_eq with hnone | hfault
    · exact hnone
    · rw [hfault, fault?_eq_none_of_wholePart_ne_nil hwhole, Option.map_none]
  rw [hnone, Option.none_or] at hpending
  have hsome : 0 < r.scan.complete := by
    rw [hcomplete]
    exact List.length_pos_of_ne_nil hwhole
  unfold check
  dsimp only
  rw [if_pos hsome, ← hcomplete, ← hpending]
  rfl

/-- Without a whole instruction a scan finds at most what fails later. -/
theorem scan_of_wholePart (hr : r.Poised pieces ending) (hwhole : wholePart r.buffer = []) :
    r.scan = { r with pending := r.scan.pending } := by
  have hcomplete := complete_scan hr.sound
  rw [hwhole, List.length_nil, ← hr.complete_eq] at hcomplete
  change { r with complete := r.scan.complete, pending := r.scan.pending } = _
  rw [hcomplete]

theorem check_of_fault (hr : r.Poised pieces ending) {fault : Instruction.Fault}
    (hwhole : wholePart r.buffer = []) (hfault : fault? r.buffer = some fault) :
    r.check = (.failed (.ofFault fault), { r with pending := none }) := by
  have hsome : r.scan.pending = some (.ofFault fault) := by
    rw [pending_scan hr.sound, openPart_eq_self hwhole, hfault]
    rcases hr.pending_eq with hnone | heq
    · rw [hnone]
      rfl
    · rw [heq, hfault]
      rfl
  have hscan := scan_of_wholePart hr hwhole
  rw [hsome] at hscan
  unfold check
  dsimp only
  rw [hscan, if_neg (by rw [hr.complete_eq]; exact Nat.lt_irrefl 0)]

theorem check_of_undecided (hr : r.Poised pieces ending) (hwhole : wholePart r.buffer = [])
    (hfault : fault? r.buffer = none) : r.check = (.waiting, r) := by
  have hpending := pending_scan hr.sound
  have hnone : r.pending = none := by
    rcases hr.pending_eq with hnone | heq
    · exact hnone
    · rw [heq, hfault, Option.map_none]
  rw [openPart_eq_self hwhole, hfault, hnone] at hpending
  have hscan : r.scan = r := by
    rw [scan_of_wholePart hr hwhole, hpending]
    exact congrArg (fun pending => { r with pending }) hnone.symm
  unfold check
  dsimp only
  rw [hscan, if_neg (by rw [hr.complete_eq]; exact Nat.lt_irrefl 0), hnone, hr.ended_eq]
  rfl

/-! ## Waiting for an instruction -/

theorem unfinished_of_wholePart {bytes : List UInt8} (hwhole : wholePart bytes = []) :
    Unfinished bytes := by
  have hopen := unfinished_openPart bytes
  rwa [openPart_eq_self hwhole] at hopen

theorem instructionEnd_of_fault? {bytes : List UInt8} {fault : Instruction.Fault}
    (hfault : fault? bytes = some fault) : instructionEnd bytes = .error fault := by
  unfold fault? at hfault
  split at hfault
  next found hend =>
    cases hfault
    exact hend
  · cases hfault

theorem fault?_of_instructionEnd {bytes : List UInt8} {fault : Instruction.Fault}
    (hfault : instructionEnd bytes = .error fault) : fault? bytes = some fault := by
  simp [fault?, hfault]

theorem check_with_source (r : Reader) (source : List Arrival) :
    ({ r with source } : Reader).check = (r.check.1, { r.check.2 with source }) := by
  have hscan : ({ r with source } : Reader).scan = { r.scan with source } := rfl
  unfold check
  dsimp only
  rw [hscan]
  obtain ⟨_, buffer, complete, ended, pending, idleTimeout⟩ := r.scan
  by_cases hcomplete : 0 < complete
  · simp only [if_pos hcomplete]
  · simp only [if_neg hcomplete]
    cases pending with
    | some failure => rfl
    | none => cases ended <;> rfl

/-- What is read is the source that is given, not the one that the reader holds. -/
theorem awaitFrom_with_source (arrivals source : List Arrival) (r : Reader) :
    awaitFrom arrivals { r with source } = awaitFrom arrivals r := by
  induction arrivals generalizing r source with
  | nil => simp only [awaitFrom, check_with_source]
  | cons arrival rest ih =>
      simp only [awaitFrom, check_with_source]
      cases r.check with
      | mk outcome next =>
          cases outcome with
          | done value => rfl
          | failed failure => rfl
          | waiting =>
              have hreceive : ({ next with source } : Reader).receive arrival =
                  { next.receive arrival with source } := by
                cases arrival <;> rfl
              simp only [hreceive, ih]

/-- A reader that reports a fault stays where it is, and will report it again. -/
theorem await_of_fault (hr : r.Poised pieces ending) {fault : Instruction.Fault}
    (hwhole : wholePart r.buffer = []) (hfault : fault? r.buffer = some fault) :
    r.await false = (.failed (.ofFault fault), { r with pending := none }) := by
  have hcheck := check_of_fault hr hwhole hfault
  show awaitFrom r.source r = _
  rw [hr.source_eq]
  cases pieces with
  | nil => simp [awaitFrom, hcheck, hr.source_eq]
  | cons piece later => simp [awaitFrom, hcheck, hr.source_eq]

theorem await_of_wholePart_ne_nil (hr : r.Poised pieces ending)
    (hwhole : wholePart r.buffer ≠ []) :
    r.await false = (.done (), { r with
      complete := (wholePart r.buffer).length
      pending := (fault? (openPart r.buffer)).map Failure.ofFault }) := by
  have hcheck := check_of_wholePart_ne_nil hr hwhole
  show awaitFrom r.source r = _
  rw [hr.source_eq]
  cases pieces with
  | nil => simp [awaitFrom, hcheck, hr.source_eq]
  | cons piece later => simp [awaitFrom, hcheck, hr.source_eq]

/-- The reader once it has taken the first of the pieces to come. -/
theorem Poised.receive {piece : List UInt8} (hr : r.Poised (piece :: pieces) ending)
    (hfault : fault? r.buffer = none) :
    ({ r with buffer := r.buffer ++ piece,
              source := pieces.map Arrival.data ++ [Arrival.ofEnding ending] } :
      Reader).Poised pieces ending where
  source_eq := rfl
  complete_eq := hr.complete_eq
  pending_eq := by
    rcases hr.pending_eq with hnone | heq
    · exact Or.inl hnone
    · rw [hfault] at heq
      exact Or.inl heq
  ended_eq := hr.ended_eq

theorem await_of_undecided {piece : List UInt8} (hr : r.Poised (piece :: pieces) ending)
    (hwhole : wholePart r.buffer = []) (hfault : fault? r.buffer = none) :
    r.await false = ({ r with
      buffer := r.buffer ++ piece,
      source := pieces.map Arrival.data ++ [Arrival.ofEnding ending] } : Reader).await false := by
  have hcheck := check_of_undecided hr hwhole hfault
  show awaitFrom r.source r = awaitFrom _ _
  rw [hr.source_eq]
  simp only [List.map_cons, List.cons_append, awaitFrom, hcheck, Reader.receive]
  exact (awaitFrom_with_source _ _ { r with buffer := r.buffer ++ piece }).symm

theorem fst_check_of_wholePart_eq_nil (hr : r.Sound) (hwhole : wholePart r.buffer = []) :
    r.check.1 =
      match r.pending.or ((fault? r.buffer).map Failure.ofFault) with
      | some failure => .failed failure
      | none => if r.ended then .failed r.endFailure else .waiting := by
  have hcomplete := complete_scan hr
  have hpending := pending_scan hr
  rw [hwhole, List.length_nil] at hcomplete
  rw [openPart_eq_self hwhole] at hpending
  unfold check
  dsimp only
  rw [if_neg (by omega), ← hpending]
  cases r.scan.pending with
  | some failure => rfl
  | none =>
      rw [ended_scan]
      cases r.ended <;> rfl

theorem await_at_end (hr : r.Poised [] ending) (hwhole : wholePart r.buffer = [])
    (hfault : fault? r.buffer = none) :
    (r.await false).1 = .failed (firstFailure r.buffer ending) := by
  have hcheck := check_of_undecided hr hwhole hfault
  have hnone : r.pending = none := by
    rcases hr.pending_eq with hnone | heq
    · exact hnone
    · rw [heq, hfault, Option.map_none]
  -- there is nothing to come but the end of the stream
  have hlast : (r.await false).1 = (r.receive (Arrival.ofEnding ending)).check.1 := by
    show (awaitFrom r.source r).1 = _
    simp only [hr.source_eq, List.map_nil, List.nil_append, awaitFrom, hcheck]
  have hwholeLast : wholePart (r.receive (Arrival.ofEnding ending)).buffer = [] := by
    simpa using hwhole
  rw [hlast, fst_check_of_wholePart_eq_nil (hr.sound.receive _) hwholeLast, buffer_receive,
    Arrival.bytes_ofEnding, List.append_nil, hfault]
  have hend : ∃ length, instructionEnd r.buffer = .ok length := by
    cases hend : instructionEnd r.buffer with
    | error fault => simp [fault?_of_instructionEnd hend] at hfault
    | ok length => exact ⟨length, rfl⟩
  obtain ⟨length, hend⟩ := hend
  cases ending with
  | some reason => simp [Arrival.ofEnding, receive, firstFailure, hend]
  | none => simp [Arrival.ofEnding, receive, firstFailure, hend, hnone, endFailure]

/-! ## One batch after another -/

/-- A read hands out whole instructions from the front of what is left of the stream. -/
def Delivers (r : Reader) (pieces : List (List UInt8)) (ending : Option String) : Prop :=
  ∃ batch next later, r.readSome false false = (.done batch, next) ∧ batch ≠ [] ∧
    Whole batch ∧ next.Poised later ending ∧
    r.buffer ++ pieces.flatten = batch ++ (next.buffer ++ later.flatten)

/-- A read reports what is wrong with what is left of the stream, and goes on to do so if
that is a fault. -/
def Reports (r : Reader) (pieces : List (List UInt8)) (ending : Option String) : Prop :=
  Unfinished (r.buffer ++ pieces.flatten) ∧
    (r.readSome false false).1 = .failed (firstFailure (r.buffer ++ pieces.flatten) ending) ∧
    ∀ fault, instructionEnd (r.buffer ++ pieces.flatten) = .error fault →
      ∃ later, (r.readSome false false).2.Poised later ending ∧
        (r.readSome false false).2.buffer ++ later.flatten = r.buffer ++ pieces.flatten

theorem delivers_of_wholePart_ne_nil (hr : r.Poised pieces ending)
    (hwhole : wholePart r.buffer ≠ []) : r.Delivers pieces ending := by
  have htake : r.buffer.take (wholePart r.buffer).length = wholePart r.buffer :=
    (List.prefix_iff_eq_take.mp (List.take_prefix _ _)).symm
  have hdrop : r.buffer.drop (wholePart r.buffer).length = openPart r.buffer := by
    rw [openPart, completePrefix_eq]
  have hread : r.readSome false false =
      (.done (wholePart r.buffer), { r with
        buffer := openPart r.buffer
        complete := 0
        pending := (fault? (openPart r.buffer)).map Failure.ofFault }) := by
    simp only [readSome, await_of_wholePart_ne_nil hr hwhole, htake, hdrop]
  refine ⟨_, _, pieces, hread, hwhole, whole_wholePart _, ?_, ?_⟩
  · exact ⟨hr.source_eq, rfl, Or.inr rfl, hr.ended_eq⟩
  · rw [← List.append_assoc, wholePart_append_openPart]

theorem reports_of_fault (hr : r.Poised pieces ending) {fault : Instruction.Fault}
    (hwhole : wholePart r.buffer = []) (hfault : fault? r.buffer = some fault) :
    r.Reports pieces ending := by
  have hbegins := unfinished_append_of_fault (instructionEnd_of_fault? hfault) pieces.flatten
  have hread : r.readSome false false =
      (.failed (.ofFault fault), { r with pending := none }) := by
    simp only [readSome, await_of_fault hr hwhole hfault]
  refine ⟨hbegins.1, ?_, ?_⟩
  · simp only [hread, firstFailure, hbegins.2]
  · intro _ _
    rw [hread]
    exact ⟨pieces, ⟨hr.source_eq, hr.complete_eq, Or.inl rfl, hr.ended_eq⟩, rfl⟩

theorem reports_at_end (hr : r.Poised [] ending) (hwhole : wholePart r.buffer = [])
    (hfault : fault? r.buffer = none) : r.Reports [] ending := by
  have hawait := await_at_end hr hwhole hfault
  have hread : (r.readSome false false).1 = .failed (firstFailure r.buffer ending) := by
    unfold readSome
    split
    next next heq => simp [heq] at hawait
    next failure next heq => simpa [heq] using hawait
    next next heq => simp [heq] at hawait
  unfold Reports
  rw [List.flatten_nil, List.append_nil]
  refine ⟨unfinished_of_wholePart hwhole, hread, ?_⟩
  intro fault hend
  rw [fault?_of_instructionEnd hend] at hfault
  cases hfault

theorem delivers_or_reports (hr : r.Poised pieces ending) :
    r.Delivers pieces ending ∨ r.Reports pieces ending := by
  induction pieces generalizing r with
  | nil =>
      by_cases hwhole : wholePart r.buffer = []
      · cases hfault : fault? r.buffer with
        | some fault => exact Or.inr (reports_of_fault hr hwhole hfault)
        | none => exact Or.inr (reports_at_end hr hwhole hfault)
      · exact Or.inl (delivers_of_wholePart_ne_nil hr hwhole)
  | cons piece pieces ih =>
      by_cases hwhole : wholePart r.buffer = []
      · cases hfault : fault? r.buffer with
        | some fault => exact Or.inr (reports_of_fault hr hwhole hfault)
        | none =>
            -- Nothing can be said yet: the read goes on as if the piece had been there.
            have hlater := ih (hr.receive hfault)
            have hread := await_of_undecided hr hwhole hfault
            simpa only [Delivers, Reports, readSome, hread, List.flatten_cons,
              List.append_assoc] using hlater
      · exact Or.inl (delivers_of_wholePart_ne_nil hr hwhole)

theorem fst_readTimes_succ (count : Nat) (r : Reader) :
    (readTimes (count + 1) r).1 =
      (r.readSome false false).1 :: (readTimes count (r.readSome false false).2).1 := rfl

/-- A fault at the front of the stream is reported at every read. -/
theorem readTimes_of_fault (hr : r.Poised pieces ending) {fault : Instruction.Fault}
    (hfault : instructionEnd (r.buffer ++ pieces.flatten) = .error fault) (count : Nat) :
    (readTimes count r).1 = List.replicate count (.failed (.ofFault fault)) := by
  induction count generalizing r pieces with
  | zero => rfl
  | succ count ih =>
      have hbegins := unfinished_append_of_fault hfault []
      rw [List.append_nil] at hbegins
      rcases delivers_or_reports hr with hdelivers | ⟨_, hread, hagain⟩
      · -- a stream that begins with a fault begins with no instruction
        obtain ⟨batch, next, later, _, hsome, hbatch, _, hsplit⟩ := hdelivers
        have hnone := wholePart_append_unfinished .nil hbegins.1
        rw [List.nil_append, hsplit, wholePart_append hbatch] at hnone
        exact absurd (List.append_eq_nil_iff.mp hnone).1 hsome
      · obtain ⟨later, hnext, hsame⟩ := hagain fault hfault
        rw [← hsame] at hfault
        have hrest := ih hnext hfault
        rw [hsame] at hfault
        rw [fst_readTimes_succ, List.replicate_succ, hrest, hread]
        simp only [firstFailure, hfault]

/-- The batches of a reader and its first failure. -/
theorem exists_batches (hr : r.Poised pieces ending) :
    ∃ batches : List (List UInt8),
      batches.flatten = wholePart (r.buffer ++ pieces.flatten) ∧
      (∀ batch ∈ batches, batch ≠ [] ∧ Whole batch) ∧
      (readTimes (batches.length + 1) r).1 = batches.map Outcome.done ++
        [.failed (firstFailure (openPart (r.buffer ++ pieces.flatten)) ending)] ∧
      ∀ fault, instructionEnd (openPart (r.buffer ++ pieces.flatten)) = .error fault →
        ∀ later, (readTimes (batches.length + later) r).1 = batches.map Outcome.done ++
          List.replicate later (.failed (.ofFault fault)) := by
  -- a batch is not empty, so each read leaves less of the stream
  induction hlength : (r.buffer ++ pieces.flatten).length using Nat.strongRecOn
      generalizing r pieces with
  | _ length ih =>
      subst hlength
      rcases delivers_or_reports hr with hdelivers | ⟨hunfinished, hread, _⟩
      · obtain ⟨batch, next, later, hread, hsome, hbatch, hnext, hsplit⟩ := hdelivers
        have hshorter : (next.buffer ++ later.flatten).length <
            (r.buffer ++ pieces.flatten).length := by
          have hpositive := List.length_pos_of_ne_nil hsome
          rw [hsplit]
          simp only [List.length_append]
          omega
        obtain ⟨batches, hflatten, hall, hfirst, hagain⟩ := ih _ hshorter hnext rfl
        rw [hsplit, wholePart_append hbatch, openPart_append hbatch]
        refine ⟨batch :: batches, ?_, ?_, ?_, ?_⟩
        · rw [List.flatten_cons, hflatten]
        · intro other hother
          rcases List.mem_cons.mp hother with rfl | hother
          · exact ⟨hsome, hbatch⟩
          · exact hall other hother
        · rw [List.length_cons, fst_readTimes_succ, hread]
          dsimp only
          rw [hfirst, List.map_cons, List.cons_append]
        · intro fault hfault count
          have hcount : (batch :: batches).length + count = (batches.length + count) + 1 := by
            rw [List.length_cons]
            omega
          rw [hcount, fst_readTimes_succ, hread]
          dsimp only
          rw [hagain fault hfault count, List.map_cons, List.cons_append]
      · have hopen := openPart_append_unfinished .nil hunfinished
        have hwhole := wholePart_append_unfinished .nil hunfinished
        rw [List.nil_append] at hopen hwhole
        refine ⟨[], by rw [hwhole, List.flatten_nil], by simp, ?_, ?_⟩
        · rw [hopen]
          simp only [List.length_nil, readTimes, hread, List.map_nil, List.nil_append]
        · intro fault hfault count
          rw [hopen] at hfault
          simpa using readTimes_of_fault hr hfault count

/-- However a stream is cut into pieces, a fresh reader hands out its longest prefix of
whole instructions in batches that are not empty and end between two instructions. The
failure after them is told by the rest of the stream and by its end, and a fault in the
rest is reported at every further read. -/
theorem readTimes_of_cut_stream (stream : List UInt8) (ending : Option String) :
    ∃ delivered rest, stream = delivered ++ rest ∧ Whole delivered ∧
      (∀ whole, Whole whole → whole <+: stream → whole <+: delivered) ∧
      ∀ pieces : List (List UInt8), pieces.flatten = stream →
        ∃ batches : List (List UInt8),
          batches.flatten = delivered ∧
          (∀ batch ∈ batches, batch ≠ [] ∧ Whole batch) ∧
          (readTimes (batches.length + 1) (ofPieces pieces ending)).1 =
            batches.map Outcome.done ++ [.failed (firstFailure rest ending)] ∧
          ∀ fault, instructionEnd rest = .error fault →
            ∀ later, (readTimes (batches.length + later) (ofPieces pieces ending)).1 =
              batches.map Outcome.done ++ List.replicate later (.failed (.ofFault fault)) := by
  refine ⟨wholePart stream, openPart stream, (wholePart_append_openPart stream).symm,
    whole_wholePart stream, ?_, ?_⟩
  · intro whole hwhole hfront
    exact prefix_wholePart hwhole hfront
  · rintro pieces rfl
    exact exists_batches (poised_ofPieces pieces ending)

end Reader

end LongPollTunnel

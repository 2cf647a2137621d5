import Mathlib.Data.List.Basic
import Mathlib.Order.Basic
import LongPollTunnel.Instruction.Framing

/-! # What follows a finished scan never matters

A scan that is done has read a definite piece of its input and finds the same in any
other input that begins with that piece; a fault stays one whatever comes later. From
these two laws a stream has exactly one longest prefix of whole instructions, and cutting
it off piece by piece finds the same prefix as cutting it off at once.
-/

namespace LongPollTunnel.Framing

open Instruction

namespace Scan

variable {α β : Type}

/-- Two scans are done if the first is, and the second with what that leaves. -/
theorem andThen_eq_done_iff {scan : Scan α} {next : α → List UInt8 → Scan β} {value : β}
    {rest : List UInt8} :
    scan.andThen next = .done value rest ↔
      ∃ first middle, scan = .done first middle ∧ next first middle = .done value rest := by
  cases scan with
  | done first middle =>
      constructor
      · intro hnext
        exact ⟨first, middle, rfl, hnext⟩
      · rintro ⟨_, _, heq, hnext⟩
        cases heq
        exact hnext
  | malformed fault => simp
  | undecided => simp

/-- They fail where the first does, or the second behind it. -/
theorem andThen_eq_malformed_iff {scan : Scan α} {next : α → List UInt8 → Scan β}
    {fault : Fault} :
    scan.andThen next = .malformed fault ↔
      scan = .malformed fault ∨
        ∃ first middle, scan = .done first middle ∧ next first middle = .malformed fault := by
  cases scan with
  | done first middle =>
      constructor
      · intro hnext
        exact Or.inr ⟨first, middle, rfl, hnext⟩
      · rintro (heq | ⟨_, _, heq, hnext⟩)
        · cases heq
        · cases heq
          exact hnext
  | malformed found => simp
  | undecided => simp

end Scan

/-- A scan that may be made again when more has come: what it has found stays found. -/
structure Incremental {α : Type} (scan : List UInt8 → Scan α) : Prop where
  of_done : ∀ bytes value rest, scan bytes = .done value rest →
    ∃ used, bytes = used ++ rest ∧ ∀ more, scan (used ++ more) = .done value more
  of_malformed : ∀ bytes fault more, scan bytes = .malformed fault →
    scan (bytes ++ more) = .malformed fault

namespace Incremental

variable {α β : Type}

theorem malformed (fault : Fault) : Incremental fun _ => (Scan.malformed fault : Scan α) where
  of_done := by
    intro bytes value rest hscan
    cases hscan
  of_malformed := by
    intro bytes found more hscan
    exact hscan

/-- What a finished scan found stays found when more bytes follow. -/
theorem append_of_done {scan : List UInt8 → Scan α} (hscan : Incremental scan)
    {bytes rest : List UInt8} {value : α} (hdone : scan bytes = .done value rest)
    (more : List UInt8) : scan (bytes ++ more) = .done value (rest ++ more) := by
  obtain ⟨used, rfl, hused⟩ := hscan.of_done bytes value rest hdone
  rw [List.append_assoc]
  exact hused (rest ++ more)

/-- Scans that follow each other are incremental if each of them is. -/
theorem andThen {scan : List UInt8 → Scan α} {next : α → List UInt8 → Scan β}
    (hscan : Incremental scan) (hnext : ∀ value, Incremental (next value)) :
    Incremental fun bytes => (scan bytes).andThen next where
  of_done := by
    intro bytes value rest hdone
    obtain ⟨first, middle, hfirst, hsecond⟩ := Scan.andThen_eq_done_iff.mp hdone
    obtain ⟨used, rfl, hused⟩ := hscan.of_done bytes first middle hfirst
    obtain ⟨later, rfl, hlater⟩ := (hnext first).of_done middle value rest hsecond
    refine ⟨used ++ later, by simp, ?_⟩
    intro more
    simp only [List.append_assoc, hused, Scan.andThen_done, hlater]
  of_malformed := by
    intro bytes fault more hfault
    rcases Scan.andThen_eq_malformed_iff.mp hfault with hfirst | ⟨first, middle, hfirst, hsecond⟩
    · simp only [hscan.of_malformed bytes fault more hfirst, Scan.andThen_malformed]
    · simp only [hscan.append_of_done hfirst more, Scan.andThen_done]
      exact (hnext first).of_malformed middle fault more hsecond

end Incremental

theorem incremental_scanLength (digits value : Nat) : Incremental (scanLength digits value) where
  of_done := by
    intro bytes length rest hscan
    -- a length ends at its point, so what was read of it does not depend on what follows
    induction bytes generalizing digits value with
    | nil => simp [scanLength] at hscan
    | cons byte tail ih =>
        simp only [scanLength] at hscan
        split at hscan
        next hdigit =>
          split at hscan
          · cases hscan
          next hroom =>
            obtain ⟨used, rfl, hused⟩ := ih _ _ hscan
            refine ⟨byte :: used, rfl, ?_⟩
            intro more
            simp only [List.cons_append, scanLength, hdigit, hroom, if_true, if_false, hused]
        next hdigit =>
          split at hscan
          next hpoint =>
            split at hscan
            · cases hscan
            next hsome =>
              cases hscan
              refine ⟨[byte], rfl, ?_⟩
              intro more
              simp only [List.cons_append, List.nil_append, scanLength]
              rw [if_neg hdigit, if_pos hpoint, if_neg hsome]
          · cases hscan
  of_malformed := by
    intro bytes fault more hscan
    induction bytes generalizing digits value with
    | nil => simp [scanLength] at hscan
    | cons byte tail ih =>
        simp only [List.cons_append, scanLength] at hscan ⊢
        split at hscan
        next hdigit =>
          split at hscan
          next hfull => simpa [hdigit, hfull] using hscan
          next hroom => simpa [hdigit, hroom] using ih _ _ hscan
        next hdigit =>
          split at hscan
          next hpoint =>
            split at hscan
            next hnone =>
              rw [if_neg hdigit, if_pos hpoint, if_pos hnone]
              exact hscan
            · cases hscan
          next hpoint =>
            rw [if_neg hdigit, if_neg hpoint]
            exact hscan

/-- What is dropped is a front of that length. -/
theorem exists_front_of_dropExactly? {count : Nat} {bytes rest : List UInt8}
    (hdrop : dropExactly? count bytes = some rest) :
    ∃ front : List UInt8, front.length = count ∧ bytes = front ++ rest := by
  obtain ⟨hlength, rfl⟩ := dropExactly?_eq_some_iff.mp hdrop
  exact ⟨bytes.take count, List.length_take_of_le hlength, (List.take_append_drop _ _).symm⟩

theorem dropExactly?_front {count : Nat} {front : List UInt8} (hfront : front.length = count)
    (rest : List UInt8) : dropExactly? count (front ++ rest) = some rest := by
  refine dropExactly?_eq_some_iff.mpr ⟨?_, (List.drop_left' hfront).symm⟩
  rw [List.length_append, hfront]
  exact Nat.le_add_right _ _

theorem incremental_skipCharacters (count : Nat) : Incremental (skipCharacters count) where
  of_done := by
    intro bytes value rest hscan
    induction count generalizing bytes with
    | zero =>
        cases hscan
        exact ⟨[], rfl, fun _ => rfl⟩
    | succ count ih =>
        cases bytes with
        | nil => cases hscan
        | cons lead tail =>
            simp only [skipCharacters] at hscan
            split at hscan
            · cases hscan
            next width hwidth =>
              split at hscan
              · cases hscan
              next left hleft =>
                -- a character is used up to its last byte, or not at all
                obtain ⟨front, hfront, rfl⟩ := exists_front_of_dropExactly? hleft
                obtain ⟨used, rfl, hused⟩ := ih _ hscan
                refine ⟨lead :: (front ++ used), ?_, ?_⟩
                · rw [List.cons_append, List.append_assoc]
                · intro more
                  simp only [List.cons_append, List.append_assoc, skipCharacters, hwidth,
                    dropExactly?_front hfront, hused]
  of_malformed := by
    intro bytes fault more hscan
    induction count generalizing bytes with
    | zero => cases hscan
    | succ count ih =>
        cases bytes with
        | nil => cases hscan
        | cons lead tail =>
            simp only [List.cons_append, skipCharacters] at hscan ⊢
            split at hscan
            next hwidth => simpa [hwidth] using hscan
            next width hwidth =>
              split at hscan
              · cases hscan
              next left hleft =>
                obtain ⟨front, hfront, rfl⟩ := exists_front_of_dropExactly? hleft
                simpa only [List.append_assoc, hwidth, dropExactly?_front hfront] using ih _ hscan

theorem incremental_scanElement : Incremental scanElement := by
  apply (incremental_scanLength 0 0).andThen
  intro length
  by_cases hlong : maxElementLength < length
  · simpa only [if_pos hlong] using Incremental.malformed _
  · simpa only [if_neg hlong] using incremental_skipCharacters length

/-- By induction over the elements that there is room for. -/
theorem incremental_scanElements (room : Nat) : Incremental (scanElements room) := by
  induction room with
  | zero => exact incremental_scanElement.andThen fun _ => Incremental.malformed _
  | succ room ih =>
      apply incremental_scanElement.andThen
      intro _
      -- What stands behind an element decides whether the instruction goes on.
      constructor
      · intro bytes value rest hscan
        cases bytes with
        | nil => cases hscan
        | cons terminator tail =>
            simp only at hscan
            split at hscan
            next hlast =>
              cases hscan
              exact ⟨[terminator], rfl, fun more => by simp [hlast]⟩
            next hlast =>
              split at hscan
              next hcomma =>
                obtain ⟨used, rfl, hused⟩ := ih.of_done _ _ _ hscan
                refine ⟨terminator :: used, rfl, ?_⟩
                intro more
                simp [hcomma, hused]
              · cases hscan
      · intro bytes fault more hscan
        cases bytes with
        | nil => cases hscan
        | cons terminator tail =>
            simp only [List.cons_append] at hscan ⊢
            split at hscan
            · cases hscan
            next hlast =>
              split at hscan
              next hcomma =>
                rw [if_neg hlast, if_pos hcomma]
                exact ih.of_malformed _ _ _ hscan
              next hcomma =>
                rw [if_neg hlast, if_neg hcomma]
                exact hscan

/-- A scan of an instruction does not change its mind. -/
theorem incremental_scanInstruction : Incremental scanInstruction :=
  incremental_scanElements maxElements

/-! ## A finished scan has read something -/

/-- A length is at least its delimiter. -/
theorem length_lt_of_scanLength {digits value length : Nat} {bytes rest : List UInt8}
    (hscan : scanLength digits value bytes = .done length rest) :
    rest.length < bytes.length := by
  induction bytes generalizing digits value with
  | nil => simp [scanLength] at hscan
  | cons byte tail ih =>
      simp only [scanLength] at hscan
      simp only [List.length_cons]
      split at hscan
      · split at hscan
        · cases hscan
        · have hshorter := ih hscan
          omega
      · split at hscan
        · split at hscan
          · cases hscan
          · cases hscan
            omega
        · cases hscan

theorem length_le_of_skipCharacters {count : Nat} {bytes rest : List UInt8}
    (hscan : skipCharacters count bytes = .done () rest) : rest.length ≤ bytes.length := by
  obtain ⟨used, rfl, _⟩ := (incremental_skipCharacters count).of_done bytes () rest hscan
  simp

theorem length_lt_of_scanElement {bytes rest : List UInt8}
    (hscan : scanElement bytes = .done () rest) : rest.length < bytes.length := by
  obtain ⟨length, middle, hlength, hskip⟩ := Scan.andThen_eq_done_iff.mp hscan
  have hfirst := length_lt_of_scanLength hlength
  split at hskip
  · cases hskip
  · have hsecond := length_le_of_skipCharacters hskip
    omega

theorem length_lt_of_scanElements {room : Nat} {bytes rest : List UInt8}
    (hscan : scanElements room bytes = .done () rest) : rest.length < bytes.length := by
  induction room generalizing bytes with
  | zero =>
      obtain ⟨_, _, _, hnone⟩ := Scan.andThen_eq_done_iff.mp hscan
      cases hnone
  | succ room ih =>
      obtain ⟨_, middle, helement, hmiddle⟩ := Scan.andThen_eq_done_iff.mp hscan
      have hfirst := length_lt_of_scanElement helement
      cases middle with
      | nil => cases hmiddle
      | cons terminator tail =>
          simp only at hmiddle
          simp only [List.length_cons] at hfirst
          split at hmiddle
          · cases hmiddle
            omega
          · split at hmiddle
            · have hsecond := ih hmiddle
              omega
            · cases hmiddle

/-- An instruction is never empty, so scanning one after the other comes to an end. -/
theorem length_lt_of_scanInstruction {bytes rest : List UInt8}
    (hscan : scanInstruction bytes = .done () rest) : rest.length < bytes.length :=
  length_lt_of_scanElements hscan

/-! ## Sequences of whole instructions -/

/-- Bytes that are one complete instruction after another. -/
inductive Whole : List UInt8 → Prop where
  | nil : Whole []
  | cons {instruction rest : List UInt8}
      (hend : instructionEnd instruction = .ok (some instruction.length))
      (hrest : Whole rest) : Whole (instruction ++ rest)

/-- The fault that bytes begin with, if they do. -/
def fault? (bytes : List UInt8) : Option Fault :=
  match instructionEnd bytes with
  | .error fault => some fault
  | .ok _ => none

/-- Bytes are one instruction if a scan of them leaves nothing. -/
theorem instructionEnd_eq_length_iff {bytes : List UInt8} :
    instructionEnd bytes = .ok (some bytes.length) ↔ scanInstruction bytes = .done () [] := by
  unfold instructionEnd
  constructor
  · intro hend
    split at hend
    next rest hscan =>
      have hlength := length_lt_of_scanInstruction hscan
      have hall : bytes.length - rest.length = bytes.length := by simpa using hend
      rw [hscan, List.eq_nil_of_length_eq_zero (by omega : rest.length = 0)]
    · cases hend
    · cases hend
  · intro hscan
    simp [hscan]

/-- The end of an instruction is found whatever follows. -/
theorem scanInstruction_append {instruction : List UInt8}
    (hend : instructionEnd instruction = .ok (some instruction.length)) (rest : List UInt8) :
    scanInstruction (instruction ++ rest) = .done () rest :=
  incremental_scanInstruction.append_of_done (instructionEnd_eq_length_iff.mp hend) rest

theorem instructionEnd_append {instruction : List UInt8}
    (hend : instructionEnd instruction = .ok (some instruction.length)) (rest : List UInt8) :
    instructionEnd (instruction ++ rest) = .ok (some instruction.length) := by
  simp [instructionEnd, scanInstruction_append hend]

/-- What a scan finds complete is complete by itself. -/
theorem exists_instruction_of_instructionEnd {bytes : List UInt8} {n : Nat}
    (hend : instructionEnd bytes = .ok (some n)) :
    ∃ instruction rest, bytes = instruction ++ rest ∧ instruction.length = n ∧
      instructionEnd instruction = .ok (some instruction.length) := by
  unfold instructionEnd at hend
  split at hend
  next rest hscan =>
    obtain ⟨instruction, rfl, hinstruction⟩ :=
      incremental_scanInstruction.of_done bytes () rest hscan
    refine ⟨instruction, rest, rfl, by simpa using hend, ?_⟩
    rw [instructionEnd_eq_length_iff]
    simpa using hinstruction []
  · cases hend
  · cases hend

namespace Whole

/-- Whole instructions after whole instructions are whole instructions. -/
theorem append {first second : List UInt8} (hfirst : Whole first) (hsecond : Whole second) :
    Whole (first ++ second) := by
  induction hfirst with
  | nil => exact hsecond
  | cons hend _ ih =>
      rw [List.append_assoc]
      exact .cons hend ih

/-- Bytes that are whole instructions begin with one. -/
theorem exists_first {bytes : List UInt8} (hwhole : Whole bytes) (hsome : bytes ≠ []) :
    ∃ instruction rest, bytes = instruction ++ rest ∧ instruction ≠ [] ∧
      instructionEnd instruction = .ok (some instruction.length) ∧ Whole rest := by
  cases hwhole with
  | nil => exact absurd rfl hsome
  | @cons instruction rest hend hrest =>
      refine ⟨instruction, rest, rfl, ?_, hend, hrest⟩
      rintro rfl
      cases hend

/-- So are any number of batches put together. -/
theorem flatten {batches : List (List UInt8)} (hbatches : ∀ batch ∈ batches, Whole batch) :
    Whole batches.flatten := by
  induction batches with
  | nil => exact .nil
  | cons batch rest ih =>
      rw [List.flatten_cons]
      exact (hbatches batch List.mem_cons_self).append
        (ih fun other hother => hbatches other (List.mem_cons_of_mem _ hother))

end Whole

theorem length_cutComplete_le (count : Nat) (bytes : List UInt8) :
    (cutComplete count bytes).1.length ≤ bytes.length := by
  induction count generalizing bytes with
  | zero => exact Nat.le_refl _
  | succ count ih =>
      simp only [cutComplete]
      split
      next rest hscan =>
        have hshorter := length_lt_of_scanInstruction hscan
        exact Nat.le_trans (ih rest) (Nat.le_of_lt hshorter)
      · exact Nat.le_refl _
      · exact Nat.le_refl _

/-- More rounds than bytes are as good as any number of them. -/
theorem cutComplete_eq_of_length_lt {bytes : List UInt8} {count other : Nat}
    (hcount : bytes.length < count) (hother : bytes.length < other) :
    cutComplete count bytes = cutComplete other bytes := by
  induction count generalizing bytes other with
  | zero => omega
  | succ count ih =>
      cases other with
      | zero => omega
      | succ other =>
          simp only [cutComplete]
          split
          next rest hscan =>
            have hshorter := length_lt_of_scanInstruction hscan
            exact ih (by omega) (by omega)
          · rfl
          · rfl

/-- An instruction at the front adds its length to what is found behind it. -/
theorem completePrefix_cons {instruction : List UInt8}
    (hend : instructionEnd instruction = .ok (some instruction.length)) (rest : List UInt8) :
    completePrefix (instruction ++ rest) =
      (instruction.length + (completePrefix rest).1, (completePrefix rest).2) := by
  have hscan := scanInstruction_append hend rest
  have hshorter := length_lt_of_scanInstruction hscan
  have hcut : cutComplete ((instruction ++ rest).length + 1) (instruction ++ rest) =
      cutComplete (rest.length + 1) rest := by
    rw [cutComplete, hscan]
    exact cutComplete_eq_of_length_lt hshorter (Nat.lt_succ_self _)
  have hkept := length_cutComplete_le (rest.length + 1) rest
  rw [completePrefix, hcut, completePrefix]
  simp only [List.length_append, Prod.mk.injEq, and_true]
  omega

/-- So do any number of them, by induction. -/
theorem completePrefix_append {whole : List UInt8} (hwhole : Whole whole)
    (rest : List UInt8) :
    completePrefix (whole ++ rest) =
      (whole.length + (completePrefix rest).1, (completePrefix rest).2) := by
  induction hwhole with
  | nil => simp
  | cons hend _ ih =>
      rw [List.append_assoc, completePrefix_cons hend, ih, List.length_append, Nat.add_assoc]

/-- Nothing complete stands at the front of the bytes. -/
def Unfinished (bytes : List UInt8) : Prop :=
  ∀ rest, scanInstruction bytes ≠ .done () rest

/-- Where no instruction is finished nothing is complete, and the fault of the first counts. -/
theorem completePrefix_of_unfinished {bytes : List UInt8} (hbytes : Unfinished bytes) :
    completePrefix bytes = (0, fault? bytes) := by
  unfold completePrefix fault? instructionEnd
  rw [cutComplete]
  cases hscan : scanInstruction bytes with
  | done value rest => exact absurd hscan (hbytes rest)
  | undecided => simp
  | malformed fault => simp

/-- Every stream is a sequence of whole instructions and a rest with nothing complete in
front. -/
theorem exists_whole_append_unfinished (bytes : List UInt8) :
    ∃ whole rest, bytes = whole ++ rest ∧ Whole whole ∧ Unfinished rest := by
  induction hlength : bytes.length using Nat.strongRecOn generalizing bytes with
  | _ length ih =>
      subst hlength
      by_cases hbytes : Unfinished bytes
      · exact ⟨[], bytes, rfl, .nil, hbytes⟩
      · obtain ⟨after, hscan⟩ := not_forall_not.mp hbytes
        obtain ⟨instruction, rfl, hinstruction⟩ :=
          incremental_scanInstruction.of_done bytes () after hscan
        have hend : instructionEnd instruction = .ok (some instruction.length) := by
          rw [instructionEnd_eq_length_iff]
          simpa using hinstruction []
        obtain ⟨whole, rest, rfl, hwhole, hrest⟩ :=
          ih after.length (length_lt_of_scanInstruction hscan) after rfl
        exact ⟨instruction ++ whole, rest, (List.append_assoc _ _ _).symm,
          .cons hend hwhole, hrest⟩

/-- The longest prefix made of whole instructions. -/
def wholePart (bytes : List UInt8) : List UInt8 :=
  bytes.take (completePrefix bytes).1

/-- What follows the longest prefix made of whole instructions. -/
def openPart (bytes : List UInt8) : List UInt8 :=
  bytes.drop (completePrefix bytes).1

/-- The two parts make up the bytes. -/
@[simp] theorem wholePart_append_openPart (bytes : List UInt8) :
    wholePart bytes ++ openPart bytes = bytes :=
  List.take_append_drop _ _

/-- There is only one way to part a stream into whole instructions and a rest with
nothing complete in front. -/
theorem completePrefix_append_unfinished {whole rest : List UInt8} (hwhole : Whole whole)
    (hrest : Unfinished rest) :
    completePrefix (whole ++ rest) = (whole.length, fault? rest) := by
  rw [completePrefix_append hwhole, completePrefix_of_unfinished hrest, Nat.add_zero]

/-- The whole part of such bytes is what stands before the unfinished rest. -/
theorem wholePart_append_unfinished {whole rest : List UInt8} (hwhole : Whole whole)
    (hrest : Unfinished rest) : wholePart (whole ++ rest) = whole := by
  simp [wholePart, completePrefix_append_unfinished hwhole hrest]

theorem openPart_append_unfinished {whole rest : List UInt8} (hwhole : Whole whole)
    (hrest : Unfinished rest) : openPart (whole ++ rest) = rest := by
  simp [openPart, completePrefix_append_unfinished hwhole hrest]

theorem whole_wholePart (bytes : List UInt8) : Whole (wholePart bytes) := by
  obtain ⟨whole, rest, rfl, hwhole, hrest⟩ := exists_whole_append_unfinished bytes
  rw [wholePart_append_unfinished hwhole hrest]
  exact hwhole

theorem unfinished_openPart (bytes : List UInt8) : Unfinished (openPart bytes) := by
  obtain ⟨whole, rest, rfl, hwhole, hrest⟩ := exists_whole_append_unfinished bytes
  rw [openPart_append_unfinished hwhole hrest]
  exact hrest

/-- The prefix that is found ends the whole part, and the fault is that of the open part. -/
theorem completePrefix_eq (bytes : List UInt8) :
    completePrefix bytes = ((wholePart bytes).length, fault? (openPart bytes)) := by
  have hparts := completePrefix_append_unfinished (whole_wholePart bytes)
    (unfinished_openPart bytes)
  rwa [wholePart_append_openPart] at hparts

/-- Whole instructions at the front belong to the whole part. -/
theorem wholePart_append {whole : List UInt8} (hwhole : Whole whole) (rest : List UInt8) :
    wholePart (whole ++ rest) = whole ++ wholePart rest := by
  rw [wholePart, completePrefix_append hwhole, List.take_length_add_append, wholePart]

/-- The open part does not depend on the instructions before it. -/
theorem openPart_append {whole : List UInt8} (hwhole : Whole whole) (rest : List UInt8) :
    openPart (whole ++ rest) = openPart rest := by
  rw [openPart, completePrefix_append hwhole, List.drop_length_add_append, openPart]

/-- No longer prefix is made of whole instructions. -/
theorem prefix_wholePart {whole bytes : List UInt8} (hwhole : Whole whole)
    (hfront : whole <+: bytes) : whole <+: wholePart bytes := by
  obtain ⟨rest, rfl⟩ := hfront
  rw [wholePart_append hwhole]
  exact List.prefix_append _ _

theorem unfinished_of_instructionEnd {bytes : List UInt8}
    (hnone : ∀ length, instructionEnd bytes ≠ .ok (some length)) : Unfinished bytes := by
  intro rest hscan
  apply hnone (bytes.length - rest.length)
  simp only [instructionEnd, hscan]

/-- Unfinished bytes have no whole part. -/
theorem wholePart_of_unfinished {bytes : List UInt8} (hbytes : Unfinished bytes) :
    wholePart bytes = [] := by
  have hwhole := wholePart_append_unfinished .nil hbytes
  rwa [List.nil_append] at hwhole

/-- An instruction in front is part of what is whole. -/
theorem wholePart_ne_nil_of_instructionEnd {bytes : List UInt8} {length : Nat}
    (hend : instructionEnd bytes = .ok (some length)) : wholePart bytes ≠ [] := by
  obtain ⟨instruction, rest, rfl, _, hinstruction⟩ := exists_instruction_of_instructionEnd hend
  have hone : Whole (instruction ++ []) := .cons hinstruction .nil
  rw [List.append_nil] at hone
  rw [wholePart_append hone]
  intro hnil
  rw [(List.append_eq_nil_iff.mp hnil).1] at hinstruction
  cases hinstruction

/-- Bytes that begin with a fault begin with it whatever follows. -/
theorem unfinished_append_of_fault {bytes : List UInt8} {fault : Fault}
    (hfault : instructionEnd bytes = .error fault) (more : List UInt8) :
    Unfinished (bytes ++ more) ∧ instructionEnd (bytes ++ more) = .error fault := by
  have hscan : scanInstruction bytes = .malformed fault := by
    unfold instructionEnd at hfault
    split at hfault
    · cases hfault
    · cases hfault
    next found hscan =>
      cases hfault
      exact hscan
  have hmore := incremental_scanInstruction.of_malformed bytes fault more hscan
  refine ⟨?_, by simp [instructionEnd, hmore]⟩
  intro rest hdone
  rw [hmore] at hdone
  cases hdone

end LongPollTunnel.Framing

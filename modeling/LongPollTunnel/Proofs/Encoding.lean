import Mathlib.Algebra.GroupWithZero.Nat
import LongPollTunnel.Proofs.Grammar

/-! # What is written is read back

Writing knows no limits, and reading checks them in the order in which it meets them: the
digits of a length at the sixth, a length at its point, the number of elements once the text
of one too many has passed. Main statement: an instruction within the limits is read back as
it was, whatever its texts are made of and whatever follows it, and any other is refused for
the first element that breaks a limit.
-/

namespace LongPollTunnel

/-! ## Lengths -/

theorem isDigit_of_mem_toDigits {c : Char} {n : Nat} (hc : c ∈ Nat.toDigits 10 n) :
    c.isDigit = true :=
  Nat.isDigit_of_mem_toDigits (by decide) (by decide) hc

namespace Framing

open Instruction

/-- A length with too many digits is refused at the first one that is too many. -/
theorem scanLength_too_many_digits {digits : List Char}
    (hdigits : ∀ c ∈ digits, c.isDigit = true) {count : Nat} (hcount : count ≤ maxLengthDigits)
    (hmany : maxLengthDigits < count + digits.length) (value : Nat) (rest : List UInt8) :
    scanLength count value (Utf8.encode digits ++ rest) = .malformed .lengthTooLong := by
  induction digits generalizing count value with
  | nil =>
      rw [List.length_nil] at hmany
      omega
  | cons c digits ih =>
      have hc := hdigits c List.mem_cons_self
      rw [List.length_cons] at hmany
      rw [encode_cons_of_isDigit hc, List.cons_append, scanLength_of_isDigit hc]
      split
      · rfl
      · exact ih (fun c hc => hdigits c (List.mem_cons_of_mem _ hc)) (by omega) (by omega) _

/-- A written length is read back unless it has too many digits. -/
theorem scanLength_toDigits (n : Nat) (rest : List UInt8) :
    scanLength 0 0 (Utf8.encode (Nat.toDigits 10 n) ++ 0x2E :: rest) =
      if n < 10 ^ maxLengthDigits then .done n rest else .malformed .lengthTooLong := by
  have hdigits : ∀ c ∈ Nat.toDigits 10 n, c.isDigit = true := fun c => isDigit_of_mem_toDigits
  have hfits : (Nat.toDigits 10 n).length ≤ maxLengthDigits ↔ n < 10 ^ maxLengthDigits :=
    Nat.length_toDigits_le_iff (by decide) (by decide)
  split
  next hshort =>
    have hpositive : 0 < (Nat.toDigits 10 n).length := Nat.length_toDigits_pos
    rw [scanLength_digits hdigits (by simpa using hfits.mpr hshort),
      Nat.ofDigitChars_ten_toDigits, scanLength, if_neg (by decide), if_pos rfl,
      if_neg (by omega)]
  next hlong =>
    refine scanLength_too_many_digits hdigits (Nat.zero_le _) ?_ 0 _
    rw [Nat.zero_add]
    exact Nat.not_le.mp (mt hfits.mp hlong)

/-! ## Elements -/

theorem encode_writeElement (element : List Char) :
    Utf8.encode (writeElement element) =
      Utf8.encode (Nat.toDigits 10 element.length) ++ 0x2E :: Utf8.encode element :=
  Utf8.encode_append _ _

/-- The limit that an element of so many characters breaks. -/
def lengthFault? (length : Nat) : Option Fault :=
  if length ≤ maxElementLength then none
  else if length < 10 ^ maxLengthDigits then some (.elementTooLong length)
  else some .lengthTooLong

/-- The limit that elements of so many characters break first. At most `room` of them may
come. -/
def firstFault? : Nat → List Nat → Option Fault
  | _, [] => none
  | 0, length :: _ => (lengthFault? length).or (some .tooManyElements)
  | room + 1, length :: lengths => (lengthFault? length).or (firstFault? room lengths)

/-- A scan that finds a fault, or else passes over what there is to pass over. -/
def Scan.faultOr (fault : Option Fault) (otherwise : Scan Unit) : Scan Unit :=
  match fault with
  | some fault => .malformed fault
  | none => otherwise

theorem Scan.faultOr_or (first second : Option Fault) (otherwise : Scan Unit) :
    faultOr (first.or second) otherwise = faultOr first (faultOr second otherwise) := by
  cases first <;> rfl

theorem Scan.andThen_faultOr (fault : Option Fault) (rest : List UInt8)
    (next : Unit → List UInt8 → Scan Unit) :
    (faultOr fault (.done () rest)).andThen next = faultOr fault (next () rest) := by
  cases fault <;> rfl

/-- An element is scanned as it was written, unless it is too long. -/
theorem scanElement_encode (element : List Char) (rest : List UInt8) :
    scanElement (Utf8.encode (writeElement element) ++ rest) =
      Scan.faultOr (lengthFault? element.length) (.done () rest) := by
  rw [encode_writeElement, List.append_assoc, List.cons_append, scanElement,
    scanLength_toDigits, lengthFault?]
  have hlimits : maxElementLength < 10 ^ maxLengthDigits := by decide
  by_cases hlong : element.length ≤ maxElementLength
  · rw [if_pos (by omega), if_pos hlong, Scan.andThen_done, if_neg (by omega),
      skipCharacters_encode]
    rfl
  · rw [if_neg hlong]
    split
    · rw [Scan.andThen_done, if_pos (by omega)]
      rfl
    · rfl

/-- The scan of written elements finds the first limit that they break. -/
theorem scanElements_encode (room : Nat) {elements : List (List Char)} (hsome : elements ≠ [])
    (rest : List UInt8) :
    scanElements room (Utf8.encode (writeElements elements) ++ rest) =
      Scan.faultOr (firstFault? room (elements.map List.length)) (.done () rest) := by
  induction elements generalizing room with
  | nil => exact absurd rfl hsome
  | cons element elements ih =>
      -- what stands behind the element: the terminator, or a comma and the other elements
      obtain ⟨behind, hwritten, hlast⟩ : ∃ behind,
          Utf8.encode (writeElements (element :: elements)) ++ rest =
            Utf8.encode (writeElement element) ++ behind ∧
          (elements = [] ∧ behind = 0x3B :: rest ∨ elements ≠ [] ∧
            behind = 0x2C :: (Utf8.encode (writeElements elements) ++ rest)) := by
        cases elements with
        | nil =>
            refine ⟨0x3B :: rest, ?_, Or.inl ⟨rfl, rfl⟩⟩
            rw [writeElements, Utf8.encode_append, List.append_assoc]
            rfl
        | cons second others =>
            refine ⟨0x2C :: (Utf8.encode (writeElements (second :: others)) ++ rest), ?_,
              Or.inr ⟨by simp, rfl⟩⟩
            rw [writeElements, Utf8.encode_append, List.append_assoc]
            · rfl
            · simp
      rw [hwritten]
      cases room with
      | zero =>
          rw [scanElements, scanElement_encode, Scan.andThen_faultOr, List.map_cons, firstFault?,
            Scan.faultOr_or]
          rfl
      | succ room =>
          rw [scanElements, scanElement_encode, Scan.andThen_faultOr, List.map_cons, firstFault?,
            Scan.faultOr_or]
          rcases hlast with ⟨rfl, rfl⟩ | ⟨hmore, rfl⟩
          · rw [List.map_nil, firstFault?]
            rfl
          · congr 1
            exact ih room hmore

theorem lengthFault?_eq_none_iff {length : Nat} :
    lengthFault? length = none ↔ length ≤ maxElementLength := by
  unfold lengthFault?
  split
  next hshort => simp [hshort]
  next hlong => split <;> simp [hlong]

/-- Nothing is at fault if there is room for all and none is too long. -/
theorem firstFault?_eq_none_iff {room : Nat} {lengths : List Nat} :
    firstFault? room lengths = none ↔
      lengths.length ≤ room ∧ ∀ length ∈ lengths, length ≤ maxElementLength := by
  induction lengths generalizing room with
  | nil => simp [firstFault?]
  | cons length lengths ih =>
      cases room with
      | zero => simp [firstFault?]
      | succ room =>
          simp only [firstFault?, Option.or_eq_none_iff, lengthFault?_eq_none_iff, ih,
            List.length_cons, Nat.add_le_add_iff_right, List.forall_mem_cons]
          exact and_left_comm

/-- The fault found first is that of the first element that breaks a limit. -/
theorem firstFault?_eq_some_iff {room : Nat} {lengths : List Nat} {fault : Fault} :
    firstFault? room lengths = some fault ↔
      ∃ before length after, lengths = before ++ length :: after ∧ before.length ≤ room ∧
        (∀ other ∈ before, other ≤ maxElementLength) ∧
        (lengthFault? length = some fault ∨
          before.length = room ∧ length ≤ maxElementLength ∧ fault = .tooManyElements) := by
  induction lengths generalizing room with
  | nil => simp [firstFault?]
  | cons first lengths ih =>
      -- the first element breaks a limit itself, or it is the first of those before
      constructor
      · intro hfault
        cases hfirst : lengthFault? first with
        | some found =>
            refine ⟨[], first, lengths, rfl, Nat.zero_le _, by simp, Or.inl ?_⟩
            cases room <;> simpa [firstFault?, hfirst] using hfault
        | none =>
            have hshort := lengthFault?_eq_none_iff.mp hfirst
            cases room with
            | zero =>
                refine ⟨[], first, lengths, rfl, Nat.zero_le _, by simp, Or.inr ?_⟩
                exact ⟨rfl, hshort, by simpa [firstFault?, hfirst, eq_comm] using hfault⟩
            | succ room =>
                have hlater : firstFault? room lengths = some fault := by
                  simpa [firstFault?, hfirst] using hfault
                obtain ⟨before, length, after, rfl, hroom, hbefore, hbreaks⟩ := ih.mp hlater
                refine ⟨first :: before, length, after, rfl, ?_, ?_, ?_⟩
                · simpa using hroom
                · exact List.forall_mem_cons.mpr ⟨hshort, hbefore⟩
                · simpa using hbreaks
      · rintro ⟨before, length, after, hsplit, hroom, hbefore, hbreaks⟩
        cases before with
        | nil =>
            cases hsplit
            rcases hbreaks with hfault | ⟨hfull, hshort, rfl⟩
            · cases room <;> simp [firstFault?, hfault]
            · cases hfull
              simp [firstFault?, lengthFault?_eq_none_iff.mpr hshort]
        | cons head before =>
            cases hsplit
            obtain ⟨hshort, hbefore'⟩ := List.forall_mem_cons.mp hbefore
            cases room with
            | zero => simp at hroom
            | succ room =>
                have hlater : firstFault? room (before ++ length :: after) = some fault :=
                  ih.mpr ⟨before, length, after, rfl, by simpa using hroom, hbefore',
                    by simpa using hbreaks⟩
                simp [firstFault?, lengthFault?_eq_none_iff.mpr hshort, hlater]

end Framing

namespace Instruction

open Framing

/-! ## Cutting an instruction into its elements -/

/-- An element as it is written, its length without zeros in front. -/
def Piece.ofValue (value : List Char) : Piece :=
  ⟨Nat.toDigits 10 value.length, value⟩

theorem Piece.isFormed_ofValue {value : List Char} (hlimit : value.length ≤ maxElementLength) :
    (Piece.ofValue value).IsFormed where
  some_digit := Nat.toDigits_ne_nil
  few_digits :=
    (Nat.length_toDigits_le_iff (by decide) (by decide)).mpr
      (Nat.lt_of_le_of_lt hlimit (by decide))
  digits := fun _ => isDigit_of_mem_toDigits
  number := Nat.ofDigitChars_ten_toDigits
  limit := hlimit

theorem writeElements_eq_joined {elements : List (List Char)} (hsome : elements ≠ []) :
    writeElements elements = joined (elements.map Piece.ofValue) := by
  induction elements with
  | nil => exact absurd rfl hsome
  | cons element elements ih =>
      cases elements with
      | nil => rfl
      | cons second others =>
          rw [writeElements, ih (by simp)]
          · rfl
          · simp

/-- Written elements are cut where they were joined, whatever their texts are. -/
theorem split_writeElements {elements : List (List Char)} (hsome : elements ≠ [])
    (hlengths : ∀ element ∈ elements, element.length ≤ maxElementLength) :
    split (writeElements elements) = .ok elements := by
  rw [writeElements_eq_joined hsome, split_joined (by simpa using hsome)]
  · simp [Function.comp_def, Piece.ofValue]
  · exact List.forall_mem_map.mpr fun element hmem => Piece.isFormed_ofValue (hlengths element hmem)

/-! ## Instructions -/

/-- The limits that readers check. -/
structure IsWithinLimits (i : Instruction) : Prop where
  count : i.elements.length ≤ maxElements
  lengths : ∀ element ∈ i.elements, element.length ≤ maxElementLength

/-- The element comes after those in `before`, and these leave its reader nothing to
refuse. -/
structure Reaches (i : Instruction) (before : List String) (element : String) : Prop where
  among : ∃ after, i.elements = before ++ element :: after
  count : before.length ≤ maxElements
  lengths : ∀ other ∈ before, other.length ≤ maxElementLength

/-- The fault of the first element that breaks a limit. -/
inductive FirstFault (i : Instruction) : Fault → Prop where
  | elementTooLong {before : List String} {element : String}
      (hreaches : i.Reaches before element) (hlong : maxElementLength < element.length)
      (hdigits : element.length < 10 ^ maxLengthDigits) :
      FirstFault i (.elementTooLong element.length)
  | lengthTooLong {before : List String} {element : String}
      (hreaches : i.Reaches before element) (hdigits : 10 ^ maxLengthDigits ≤ element.length) :
      FirstFault i .lengthTooLong
  | tooManyElements {before : List String} {element : String}
      (hreaches : i.Reaches before element) (hfull : before.length = maxElements)
      (hlength : element.length ≤ maxElementLength) :
      FirstFault i .tooManyElements

/-- The lengths of the elements. -/
def lengths (i : Instruction) : List Nat :=
  i.elements.map String.length

theorem firstFault?_lengths_eq_none_iff {i : Instruction} :
    firstFault? maxElements i.lengths = none ↔ i.IsWithinLimits := by
  rw [firstFault?_eq_none_iff, lengths, List.length_map, List.forall_mem_map]
  exact ⟨fun ⟨hcount, hlengths⟩ => ⟨hcount, hlengths⟩,
    fun hwithin => ⟨hwithin.count, hwithin.lengths⟩⟩

instance (i : Instruction) : Decidable i.IsWithinLimits :=
  decidable_of_iff _ firstFault?_lengths_eq_none_iff

theorem firstFault?_lengths_of_reaches {i : Instruction} {before : List String}
    {element : String} {fault : Fault} (hreaches : i.Reaches before element)
    (hbreaks : lengthFault? element.length = some fault ∨ before.length = maxElements ∧
      element.length ≤ maxElementLength ∧ fault = .tooManyElements) :
    firstFault? maxElements i.lengths = some fault := by
  obtain ⟨after, hsplit⟩ := hreaches.among
  refine firstFault?_eq_some_iff.mpr
    ⟨before.map String.length, element.length, after.map String.length, ?_, ?_, ?_, ?_⟩
  · simp [lengths, hsplit]
  · simpa using hreaches.count
  · exact List.forall_mem_map.mpr hreaches.lengths
  · simpa using hbreaks

/-- The first fault is the one that a reader comes upon in the order of the elements. -/
theorem firstFault?_lengths_eq_some_iff {i : Instruction} {fault : Fault} :
    firstFault? maxElements i.lengths = some fault ↔ i.FirstFault fault := by
  have hlimits : maxElementLength < 10 ^ maxLengthDigits := by decide
  constructor
  · intro hfault
    obtain ⟨before, length, after, hsplit, hcount, hlengths, hbreaks⟩ :=
      firstFault?_eq_some_iff.mp hfault
    obtain ⟨before, others, hbefore, rfl, hothers⟩ := List.map_eq_append_iff.mp hsplit
    obtain ⟨element, after, rfl, rfl, rfl⟩ := List.map_eq_cons_iff.mp hothers
    have hreaches : i.Reaches before element :=
      ⟨⟨after, hbefore⟩, by simpa using hcount, List.forall_mem_map.mp hlengths⟩
    rcases hbreaks with hfault | ⟨hfull, hlength, rfl⟩
    · unfold lengthFault? at hfault
      split at hfault
      next => cases hfault
      next hlong =>
        split at hfault
        next hdigits =>
          cases hfault
          exact .elementTooLong hreaches (Nat.not_le.mp hlong) hdigits
        next hdigits =>
          cases hfault
          exact .lengthTooLong hreaches (Nat.not_lt.mp hdigits)
    · exact .tooManyElements hreaches (by simpa using hfull) hlength
  · rintro (⟨hreaches, hlong, hdigits⟩ | ⟨hreaches, hdigits⟩ | ⟨hreaches, hfull, hlength⟩)
    · refine firstFault?_lengths_of_reaches hreaches (Or.inl ?_)
      rw [lengthFault?, if_neg (by omega), if_pos hdigits]
    · refine firstFault?_lengths_of_reaches hreaches (Or.inl ?_)
      rw [lengthFault?, if_neg (by omega), if_neg (by omega)]
    · exact firstFault?_lengths_of_reaches hreaches (Or.inr ⟨hfull, hlength, rfl⟩)

/-- What was written is scanned whole, or refused for its first fault. -/
theorem scanInstruction_encode (i : Instruction) (rest : List UInt8) :
    scanInstruction (i.encode ++ rest) =
      Scan.faultOr (firstFault? maxElements i.lengths) (.done () rest) := by
  have hlengths : (i.elements.map String.toList).map List.length = i.lengths := by
    simp [lengths, String.length_toList]
  rw [scanInstruction, encode, write, scanElements_encode maxElements (by simp [elements]),
    hlengths]

/-- The end of an instruction is found where it is, unless it breaks a limit. -/
theorem instructionEnd_encode (i : Instruction) (rest : List UInt8) :
    instructionEnd (i.encode ++ rest) =
      match firstFault? maxElements i.lengths with
      | some fault => .error fault
      | none => .ok (some i.encode.length) := by
  rw [instructionEnd, scanInstruction_encode]
  cases firstFault? maxElements i.lengths with
  | some fault => rfl
  | none => simp [Scan.faultOr]

/-- An instruction within the limits is split into its elements again. -/
theorem split_write {i : Instruction} (hwithin : i.IsWithinLimits) :
    split i.write = .ok (i.elements.map String.toList) := by
  refine split_writeElements (by simp [elements]) (List.forall_mem_map.mpr fun element hmem => ?_)
  rw [String.length_toList]
  exact hwithin.lengths element hmem

/-- A written instruction is read back, or refused for the first limit that it breaks. -/
theorem decode_encode_eq (i : Instruction) :
    decode i.encode =
      match firstFault? maxElements i.lengths with
      | some fault => .error fault
      | none => .ok i := by
  have hend := instructionEnd_encode i []
  rw [List.append_nil] at hend
  rw [decode, hend]
  cases hfault : firstFault? maxElements i.lengths with
  | some fault => rfl
  | none =>
      have hsplit := split_write (firstFault?_lengths_eq_none_iff.mp hfault)
      have hstrings : (i.elements.map String.toList).map String.ofList = i.elements := by
        simp
      simp only [ne_eq, not_true_eq_false, if_false, encode, Utf8.decode?_encode, hsplit,
        Except.map, hstrings, ofElements_elements]

/-- An instruction within the limits is read back as it was, and its end is found whatever
follows. Any other is refused, and what it is refused for is the first limit that its elements
break. -/
theorem decode_encode (i : Instruction) :
    (i.IsWithinLimits →
      decode i.encode = .ok i ∧
        ∀ rest, instructionEnd (i.encode ++ rest) = .ok (some i.encode.length)) ∧
    (¬ i.IsWithinLimits → ∃ fault, i.FirstFault fault) ∧
    ∀ fault, decode i.encode = .error fault ↔ i.FirstFault fault := by
  refine ⟨fun hwithin => ?_, fun hbeyond => ?_, fun fault => ?_⟩
  · have hnone := firstFault?_lengths_eq_none_iff.mpr hwithin
    refine ⟨?_, fun rest => ?_⟩
    · rw [decode_encode_eq, hnone]
    · rw [instructionEnd_encode, hnone]
  · have hsome := Option.ne_none_iff_exists'.mp (mt firstFault?_lengths_eq_none_iff.mp hbeyond)
    exact hsome.imp fun fault => firstFault?_lengths_eq_some_iff.mp
  · rw [← firstFault?_lengths_eq_some_iff, decode_encode_eq]
    cases firstFault? maxElements i.lengths <;> simp

/-- Delimiters in the texts do no harm, and one element too many is refused for that. -/
theorem decode_encode_of_delimiters :
    decode (encode ⟨"a.b", ["1,2;", "日本"]⟩) = .ok ⟨"a.b", ["1,2;", "日本"]⟩ ∧
      decode (encode ⟨"nop", List.replicate 64 ";"⟩) = .error .tooManyElements := by
  constructor
  · refine ((decode_encode ⟨"a.b", ["1,2;", "日本"]⟩).1 ⟨?_, ?_⟩).1
    · decide
    · decide
  · refine ((decode_encode ⟨"nop", List.replicate 64 ";"⟩).2.2 .tooManyElements).mpr ?_
    have hreaches : Reaches ⟨"nop", List.replicate 64 ";"⟩
        ("nop" :: List.replicate 63 ";") ";" :=
      ⟨⟨[], by decide⟩, by decide, by decide⟩
    exact .tooManyElements hreaches (by decide) (by decide)

example : maxElements = 64 ∧ maxElementLength = 8192 ∧ 10 ^ maxLengthDigits = 100000 := by
  decide

end Instruction

end LongPollTunnel

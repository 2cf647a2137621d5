import Mathlib.Data.List.Basic
import LongPollTunnel.Instruction.Decoding
import LongPollTunnel.Proofs.Characters
import LongPollTunnel.Proofs.Framing

/-! # The texts that are instructions

An instruction is spelled by elements, each with the digits of its length, which may begin with
zeros, a point and its characters. Lengths decide which points, commas and semicolons are
delimiters, so the elements of a text are found from its front to its end in one way only. Main
statement: bytes decode exactly if they are a text spelled so, and to the characters of its
elements.
-/

namespace LongPollTunnel

namespace Instruction

/-- An element as it stands in a text: the digits of its length, and its characters. -/
structure Piece where
  digits : List Char
  value : List Char
  deriving DecidableEq, Repr

namespace Piece

def text (p : Piece) : List Char :=
  p.digits ++ '.' :: p.value

/-- The digits make up the number of characters, and neither are too many. -/
structure IsFormed (p : Piece) : Prop where
  some_digit : p.digits ≠ []
  few_digits : p.digits.length ≤ maxLengthDigits
  digits : ∀ c ∈ p.digits, c.isDigit = true
  number : Nat.ofDigitChars 10 p.digits 0 = p.value.length
  limit : p.value.length ≤ maxElementLength

end Piece

/-- The text of some elements: commas between them, and a semicolon at the end. -/
def joined : List Piece → List Char
  | [] => [';']
  | [last] => last.text ++ [';']
  | piece :: rest => piece.text ++ ',' :: joined rest

/-- The bytes are the text of these elements. -/
structure Spells (bytes : List UInt8) (pieces : List Piece) : Prop where
  bytes_eq : bytes = Utf8.encode (joined pieces)
  some_piece : pieces ≠ []
  few_pieces : pieces.length ≤ maxElements
  formed : ∀ piece ∈ pieces, piece.IsFormed

end Instruction

/-! ## Lengths -/

theorem toNat_of_isDigit {c : Char} (hc : c.isDigit = true) :
    0x30 ≤ c.toNat ∧ c.toNat ≤ 0x39 :=
  Char.isDigit_iff_toNat.mp hc

namespace Unsigned

theorem digit?_of_isDigit {c : Char} (hc : c.isDigit = true) :
    digit? c = some (c.toNat - '0'.toNat) :=
  if_pos (toNat_of_isDigit hc)

theorem le_ofDigitChars (digits : List Char) (value : Nat) :
    value ≤ Nat.ofDigitChars 10 digits value := by
  induction digits generalizing value with
  | nil => simp
  | cons c digits ih =>
      rw [Nat.ofDigitChars_cons]
      exact Nat.le_trans (by omega) (ih _)

/-- Digits are read as the number that they make up if it is within the bound. -/
theorem readDigits_eq_ofDigitChars {limit value : Nat} {digits : List Char}
    (hdigits : ∀ c ∈ digits, c.isDigit = true)
    (hlimit : Nat.ofDigitChars 10 digits value ≤ limit) :
    readDigits limit value digits = .ok (Nat.ofDigitChars 10 digits value) := by
  induction digits generalizing value with
  | nil => simp [readDigits]
  | cons c digits ih =>
      rw [Nat.ofDigitChars_cons, Nat.mul_comm 10] at hlimit ⊢
      have hvalue := le_ofDigitChars digits (value * 10 + (c.toNat - '0'.toNat))
      simp only [readDigits, digit?_of_isDigit (hdigits c List.mem_cons_self)]
      rw [if_neg (by omega)]
      exact ih (fun c hc => hdigits c (List.mem_cons_of_mem _ hc)) hlimit

/-- Digits that make up a number within the bound are read as it. -/
theorem read_digits {limit : Nat} {digits : List Char} (hsome : digits ≠ [])
    (hdigits : ∀ c ∈ digits, c.isDigit = true)
    (hlimit : Nat.ofDigitChars 10 digits 0 ≤ limit) :
    read limit digits = .ok (Nat.ofDigitChars 10 digits 0) := by
  have hplus : '+' ∉ digits := by
    intro hmem
    exact absurd (hdigits '+' hmem) (by decide)
  unfold read
  split
  next => exact absurd rfl hsome
  next => exact absurd List.mem_cons_self hplus
  next => exact absurd List.mem_cons_self hplus
  · exact readDigits_eq_ofDigitChars hdigits hlimit

end Unsigned

namespace Framing

open Instruction

theorem encode_cons_of_isDigit {c : Char} (hc : c.isDigit = true) (text : List Char) :
    Utf8.encode (c :: text) = UInt8.ofNat c.toNat :: Utf8.encode text := by
  have hrange := toNat_of_isDigit hc
  have hopens := Utf8.opens_of_le_7F (c := c) (by omega)
  simp [Utf8.encode, hopens.bytes]

theorem scanLength_of_isDigit {c : Char} (hc : c.isDigit = true) (count value : Nat)
    (rest : List UInt8) :
    scanLength count value (UInt8.ofNat c.toNat :: rest) =
      if count = maxLengthDigits then .malformed .lengthTooLong
      else scanLength (count + 1) (10 * value + (c.toNat - '0'.toNat)) rest := by
  have hrange := toNat_of_isDigit hc
  have hbyte : (UInt8.ofNat c.toNat).toNat = c.toNat :=
    (UInt8.toNat_ofNat' (n := c.toNat)).trans (Nat.mod_eq_of_lt (by omega))
  have hdigit : isDigit (UInt8.ofNat c.toNat) = true := by
    simp only [isDigit, UInt8.le_iff_toNat_le, hbyte]
    exact decide_eq_true hrange
  have hvalue : '0'.toNat = 0x30 := rfl
  rw [scanLength, if_pos hdigit, hbyte, hvalue, Nat.mul_comm 10]

/-- As many digits as there is room for are read as the number that they make up. -/
theorem scanLength_digits {digits : List Char} (hdigits : ∀ c ∈ digits, c.isDigit = true)
    {count : Nat} (hroom : count + digits.length ≤ maxLengthDigits) (value : Nat)
    (rest : List UInt8) :
    scanLength count value (Utf8.encode digits ++ rest) =
      scanLength (count + digits.length) (Nat.ofDigitChars 10 digits value) rest := by
  induction digits generalizing count value with
  | nil => simp
  | cons c digits ih =>
      have hc := hdigits c List.mem_cons_self
      rw [List.length_cons] at hroom
      rw [encode_cons_of_isDigit hc, List.cons_append, scanLength_of_isDigit hc,
        if_neg (by omega), ih (fun c hc => hdigits c (List.mem_cons_of_mem _ hc)) (by omega),
        Nat.ofDigitChars_cons, List.length_cons, Nat.add_assoc, Nat.add_comm 1]

/-! ## Elements that are formed are passed over -/

theorem skipCharacters_encode (text : List Char) (rest : List UInt8) :
    skipCharacters text.length (Utf8.encode text ++ rest) = .done () rest := by
  induction text with
  | nil => rfl
  | cons c text ih =>
      obtain ⟨lead, tail, hopens⟩ := Utf8.exists_opens c
      rw [hopens.encode_cons, List.cons_append, List.append_assoc, List.length_cons,
        skipCharacters, hopens.width]
      simp only [Nat.add_sub_cancel, dropExactly?_front rfl, ih]

theorem scanElement_piece {piece : Piece} (hformed : piece.IsFormed) (rest : List UInt8) :
    scanElement (Utf8.encode piece.text ++ rest) = .done () rest := by
  have hbytes : Utf8.encode piece.text ++ rest =
      Utf8.encode piece.digits ++ 0x2E :: (Utf8.encode piece.value ++ rest) := by
    rw [Piece.text, Utf8.encode_append, List.append_assoc]
    rfl
  have hpositive := List.length_pos_of_ne_nil hformed.some_digit
  have hlimit := hformed.limit
  have hlength : scanLength 0 0 (Utf8.encode piece.text ++ rest) =
      .done piece.value.length (Utf8.encode piece.value ++ rest) := by
    rw [hbytes, scanLength_digits hformed.digits (by simpa using hformed.few_digits),
      hformed.number, scanLength, if_neg (by decide), if_pos rfl, if_neg (by omega)]
  rw [scanElement, hlength, Scan.andThen_done, if_neg (by omega), skipCharacters_encode]

theorem scanElements_joined {room : Nat} {pieces : List Piece} (hsome : pieces ≠ [])
    (hroom : pieces.length ≤ room) (hformed : ∀ piece ∈ pieces, piece.IsFormed)
    (rest : List UInt8) :
    scanElements room (Utf8.encode (joined pieces) ++ rest) = .done () rest := by
  induction pieces generalizing room with
  | nil => exact absurd rfl hsome
  | cons piece pieces ih =>
      obtain ⟨hpiece, hlater⟩ := List.forall_mem_cons.mp hformed
      cases room with
      | zero => simp at hroom
      | succ room =>
          cases pieces with
          | nil =>
              rw [joined, Utf8.encode_append, List.append_assoc, scanElements,
                scanElement_piece hpiece]
              rfl
          | cons second others =>
              have hothers := ih (by simp) (by simpa using hroom) hlater
              have hbytes : Utf8.encode (joined (piece :: second :: others)) ++ rest =
                  Utf8.encode piece.text ++
                    0x2C :: (Utf8.encode (joined (second :: others)) ++ rest) := by
                rw [joined, Utf8.encode_append, List.append_assoc]
                · rfl
                · simp
              rw [hbytes, scanElements, scanElement_piece hpiece]
              exact hothers

section

variable {text : List Char} {rest : List UInt8}

/-! ## What a scan of a text has passed over -/

/-- An ASCII byte in front of a text is its first character. -/
theorem exists_of_encode_eq_cons {byte : UInt8} (hbyte : byte.toNat ≤ 0x7F)
    (hbytes : Utf8.encode text = byte :: rest) :
    ∃ later, text = Char.ofNat byte.toNat :: later ∧ rest = Utf8.encode later := by
  cases text with
  | nil => cases hbytes
  | cons c later =>
      obtain ⟨lead, tail, hopens⟩ := Utf8.exists_opens c
      rw [hopens.encode_cons] at hbytes
      obtain ⟨rfl, rfl⟩ := List.cons_eq_cons.mp hbytes
      have hwidth := hopens.width
      rw [Utf8.leadWidth?_eq, if_pos hbyte, Option.some.injEq] at hwidth
      have htail : tail = [] := List.eq_nil_of_length_eq_zero (by omega)
      subst htail
      have hc := Utf8.encode_char1 hbyte
      have hsame : Utf8.encode [c] = Utf8.encode [Char.ofNat lead.toNat] := by
        simp [Utf8.encode, hopens.bytes, hc]
      obtain ⟨rfl, -⟩ := List.cons_eq_cons.mp (Utf8.encode_injective hsame)
      exact ⟨later, rfl, rfl⟩

/-- A length that was passed over is made of digits, with a point behind them. -/
theorem exists_digits_of_scanLength {count value length : Nat} (hcount : count ≤ maxLengthDigits)
    (hscan : scanLength count value (Utf8.encode text) = .done length rest) :
    ∃ digits later, text = digits ++ '.' :: later ∧ (∀ c ∈ digits, c.isDigit = true) ∧
      0 < count + digits.length ∧ count + digits.length ≤ maxLengthDigits ∧
      length = Nat.ofDigitChars 10 digits value ∧ rest = Utf8.encode later := by
  induction text generalizing count value with
  | nil => simp [scanLength] at hscan
  | cons c later ih =>
      by_cases hc : c.isDigit = true
      · rw [encode_cons_of_isDigit hc, scanLength_of_isDigit hc] at hscan
        split at hscan
        · cases hscan
        next hroom =>
          obtain ⟨digits, later, rfl, hdigits, _, hfew, rfl, rfl⟩ := ih (by omega) hscan
          have hlength : count + (c :: digits).length = count + 1 + digits.length := by
            rw [List.length_cons]
            omega
          refine ⟨c :: digits, later, rfl, List.forall_mem_cons.mpr ⟨hc, hdigits⟩, ?_, ?_, ?_, rfl⟩
          · omega
          · omega
          · rw [Nat.ofDigitChars_cons]
      · obtain ⟨lead, tail, hopens⟩ := Utf8.exists_opens c
        have hfront := hopens.encode_cons later
        rw [hfront, scanLength] at hscan
        split at hscan
        next hdigit =>
          -- the byte of a digit is that of no other character
          have hrange : 0x30 ≤ lead.toNat ∧ lead.toNat ≤ 0x39 := by
            simpa [isDigit, UInt8.le_iff_toNat_le] using hdigit
          obtain ⟨_, heq, -⟩ := exists_of_encode_eq_cons (by omega) hfront
          obtain ⟨rfl, -⟩ := List.cons_eq_cons.mp heq
          have hnumber : (Char.ofNat lead.toNat).toNat = lead.toNat :=
            Utf8.toNat_ofNat (Or.inl (by omega))
          refine absurd (Char.isDigit_iff_toNat.mpr ?_) hc
          rw [hnumber]
          exact hrange
        next =>
          split at hscan
          next hpoint =>
            subst hpoint
            split at hscan
            · cases hscan
            next hsome =>
              obtain ⟨_, heq, hrest⟩ := exists_of_encode_eq_cons (by decide) hfront
              obtain ⟨rfl, rfl⟩ := List.cons_eq_cons.mp heq
              cases hscan
              exact ⟨[], later, rfl, by simp, by simp; omega, by simpa using hcount, by simp, hrest⟩
          · cases hscan

/-- Characters that were passed over stand at the front of the text. -/
theorem exists_value_of_skipCharacters {count : Nat}
    (hscan : skipCharacters count (Utf8.encode text) = .done () rest) :
    ∃ value later, text = value ++ later ∧ value.length = count ∧ rest = Utf8.encode later := by
  induction count generalizing text with
  | zero =>
      cases hscan
      exact ⟨[], text, rfl, rfl, rfl⟩
  | succ count ih =>
      cases text with
      | nil => cases hscan
      | cons c later =>
          obtain ⟨lead, tail, hopens⟩ := Utf8.exists_opens c
          rw [hopens.encode_cons, skipCharacters, hopens.width] at hscan
          simp only [Nat.add_sub_cancel, dropExactly?_front rfl] at hscan
          obtain ⟨value, later, rfl, rfl, rfl⟩ := ih hscan
          exact ⟨c :: value, later, rfl, rfl, rfl⟩

/-- An element that was passed over is formed as it should be. -/
theorem exists_piece_of_scanElement (hscan : scanElement (Utf8.encode text) = .done () rest) :
    ∃ (piece : Piece) (later : List Char), piece.IsFormed ∧ text = piece.text ++ later ∧
      rest = Utf8.encode later := by
  obtain ⟨length, middle, hlength, hskip⟩ := Scan.andThen_eq_done_iff.mp hscan
  obtain ⟨digits, behind, rfl, hdigits, hsome, hfew, rfl, rfl⟩ :=
    exists_digits_of_scanLength (Nat.zero_le _) hlength
  split at hskip
  · cases hskip
  next hlimit =>
    obtain ⟨value, later, rfl, hvalue, rfl⟩ := exists_value_of_skipCharacters hskip
    rw [Nat.zero_add] at hsome hfew
    have hformed : Piece.IsFormed ⟨digits, value⟩ :=
      ⟨List.ne_nil_of_length_pos hsome, hfew, hdigits, hvalue.symm, by
        rw [hvalue]
        exact Nat.not_lt.mp hlimit⟩
    exact ⟨⟨digits, value⟩, later, hformed, by simp [Piece.text], rfl⟩

/-- The elements that were passed over make up the text in front of what is left. -/
theorem exists_pieces_of_scanElements {room : Nat}
    (hscan : scanElements room (Utf8.encode text) = .done () rest) :
    ∃ (pieces : List Piece) (later : List Char), pieces ≠ [] ∧ pieces.length ≤ room ∧
      (∀ piece ∈ pieces, piece.IsFormed) ∧ text = joined pieces ++ later ∧
      rest = Utf8.encode later := by
  induction room generalizing text with
  | zero =>
      obtain ⟨_, _, _, hnone⟩ := Scan.andThen_eq_done_iff.mp hscan
      cases hnone
  | succ room ih =>
      obtain ⟨_, middle, helement, hmiddle⟩ := Scan.andThen_eq_done_iff.mp hscan
      obtain ⟨piece, behind, hformed, rfl, hbehind⟩ := exists_piece_of_scanElement helement
      cases middle with
      | nil => cases hmiddle
      | cons terminator tail =>
          simp only at hmiddle
          split at hmiddle
          next hlast =>
            subst hlast
            obtain ⟨later, rfl, hrest⟩ := exists_of_encode_eq_cons (by decide) hbehind.symm
            cases hmiddle
            refine ⟨[piece], later, by simp, by simp, by simpa using hformed, ?_, hrest⟩
            simp [joined]
          next =>
            split at hmiddle
            next hcomma =>
              subst hcomma
              obtain ⟨others, rfl, rfl⟩ := exists_of_encode_eq_cons (by decide) hbehind.symm
              obtain ⟨pieces, later, hsome, hfew, hpieces, rfl, rfl⟩ := ih hmiddle
              refine ⟨piece :: pieces, later, by simp, by simpa using hfew, ?_, ?_, rfl⟩
              · exact List.forall_mem_cons.mpr ⟨hformed, hpieces⟩
              · cases pieces with
                | nil => exact absurd rfl hsome
                | cons second others =>
                    simp [joined]
            · cases hmiddle

end

end Framing

namespace Instruction

open Framing

/-! ## Cutting a text into its elements -/

theorem splitFrom_digits {digits : List Char} (hdigits : ∀ c ∈ digits, c.isDigit = true)
    (seen rest : List Char) :
    splitFrom (.inLength seen) (digits ++ rest) =
      splitFrom (.inLength (digits.reverse ++ seen)) rest := by
  induction digits generalizing seen with
  | nil => rfl
  | cons c digits ih =>
      have hpoint : c ≠ '.' := by
        rintro rfl
        exact absurd (hdigits '.' List.mem_cons_self) (by decide)
      rw [List.cons_append, splitFrom, if_neg hpoint,
        ih (fun c hc => hdigits c (List.mem_cons_of_mem _ hc)), List.reverse_cons,
        List.append_assoc, List.singleton_append]

theorem splitFrom_text (text seen rest : List Char) :
    splitFrom (.inText text.length seen) (text ++ rest) =
      splitFrom (.inText 0 (text.reverse ++ seen)) rest := by
  induction text generalizing seen with
  | nil => rfl
  | cons c text ih =>
      rw [List.length_cons, List.cons_append, splitFrom, ih, List.reverse_cons,
        List.append_assoc, List.singleton_append]

/-- The digits of an element are read as the number of its characters. -/
theorem Piece.IsFormed.read_eq {piece : Piece} (hformed : piece.IsFormed) :
    Unsigned.read Unsigned.max64 piece.digits = .ok piece.value.length := by
  have hfits : maxElementLength ≤ Unsigned.max64 := by decide
  rw [← hformed.number]
  apply Unsigned.read_digits hformed.some_digit hformed.digits
  rw [hformed.number]
  exact Nat.le_trans hformed.limit hfits

theorem splitFrom_piece {piece : Piece} (hformed : piece.IsFormed) (rest : List Char) :
    splitFrom (.inLength []) (piece.text ++ rest) =
      splitFrom (.inText 0 piece.value.reverse) rest := by
  rw [Piece.text, List.append_assoc, splitFrom_digits hformed.digits, List.cons_append, splitFrom,
    if_pos rfl, List.append_nil, List.reverse_reverse, hformed.read_eq]
  simp only [splitFrom_text, List.append_nil]

/-- A text is cut where its elements were joined, whatever their characters are. -/
theorem split_joined {pieces : List Piece} (hsome : pieces ≠ [])
    (hformed : ∀ piece ∈ pieces, piece.IsFormed) :
    split (joined pieces) = .ok (pieces.map Piece.value) := by
  unfold split
  induction pieces with
  | nil => exact absurd rfl hsome
  | cons piece pieces ih =>
      obtain ⟨hpiece, hlater⟩ := List.forall_mem_cons.mp hformed
      cases pieces with
      | nil =>
          rw [joined, splitFrom_piece hpiece, splitFrom, if_pos rfl, List.reverse_reverse]
          rfl
      | cons second others =>
          rw [joined, splitFrom_piece hpiece, splitFrom, if_neg (by decide), if_pos rfl,
            ih (by simp) hlater, List.reverse_reverse]
          · rfl
          · simp

/-! ## Only one way to spell -/

/-- Digits end where their point stands. -/
theorem eq_of_digits_append {first second x y : List Char}
    (hfirst : ∀ c ∈ first, c.isDigit = true) (hsecond : ∀ c ∈ second, c.isDigit = true)
    (heq : first ++ '.' :: x = second ++ '.' :: y) : first = second ∧ x = y := by
  induction first generalizing second with
  | nil =>
      cases second with
      | nil => exact ⟨rfl, (List.cons_eq_cons.mp heq).2⟩
      | cons c second =>
          obtain ⟨rfl, -⟩ := List.cons_eq_cons.mp heq
          exact absurd (hsecond '.' List.mem_cons_self) (by decide)
  | cons c first ih =>
      cases second with
      | nil =>
          obtain ⟨rfl, -⟩ := List.cons_eq_cons.mp heq
          exact absurd (hfirst '.' List.mem_cons_self) (by decide)
      | cons c' second =>
          obtain ⟨rfl, hlater⟩ := List.cons_eq_cons.mp heq
          obtain ⟨rfl, rfl⟩ := ih (List.forall_mem_cons.mp hfirst).2
            (List.forall_mem_cons.mp hsecond).2 hlater
          exact ⟨rfl, rfl⟩

/-- An element ends after as many characters as its digits say. -/
theorem eq_of_text_append {first second : Piece} {x y : List Char} (hfirst : first.IsFormed)
    (hsecond : second.IsFormed) (heq : first.text ++ x = second.text ++ y) :
    first = second ∧ x = y := by
  rw [Piece.text, Piece.text, List.append_assoc, List.append_assoc, List.cons_append,
    List.cons_append] at heq
  obtain ⟨hdigits, hrest⟩ := eq_of_digits_append hfirst.digits hsecond.digits heq
  have hlength : first.value.length = second.value.length := by
    rw [← hfirst.number, ← hsecond.number, hdigits]
  obtain ⟨hvalue, hafter⟩ := List.append_inj hrest hlength
  cases first
  cases second
  cases hdigits
  cases hvalue
  exact ⟨rfl, hafter⟩

theorem joined_cons (piece : Piece) (pieces : List Piece) :
    joined (piece :: pieces) =
      piece.text ++ if pieces = [] then [';'] else ',' :: joined pieces := by
  cases pieces <;> rfl

/-- A text is joined from formed elements in one way only. -/
theorem joined_injective {first second : List Piece} (hfirst : ∀ piece ∈ first, piece.IsFormed)
    (hsecond : ∀ piece ∈ second, piece.IsFormed) (hsome : first ≠ []) (hother : second ≠ [])
    (heq : joined first = joined second) : first = second := by
  induction first generalizing second with
  | nil => exact absurd rfl hsome
  | cons piece first ih =>
      cases second with
      | nil => exact absurd rfl hother
      | cons piece' second =>
          obtain ⟨hpiece, hlater⟩ := List.forall_mem_cons.mp hfirst
          obtain ⟨hpiece', hlater'⟩ := List.forall_mem_cons.mp hsecond
          rw [joined_cons, joined_cons] at heq
          obtain ⟨rfl, hbehind⟩ := eq_of_text_append hpiece hpiece' heq
          split at hbehind
          next hlast =>
            split at hbehind
            next hlast' => rw [hlast, hlast']
            · cases hbehind
          next hmore =>
            split at hbehind
            · cases hbehind
            next hmore' =>
              rw [ih hlater hlater' hmore hmore' (List.cons_eq_cons.mp hbehind).2]

/-! ## What decodes -/

theorem Spells.unique {bytes : List UInt8} {first second : List Piece}
    (hfirst : Spells bytes first) (hsecond : Spells bytes second) : first = second := by
  refine joined_injective hfirst.formed hsecond.formed hfirst.some_piece hsecond.some_piece ?_
  apply Utf8.encode_injective
  rw [← hfirst.bytes_eq, hsecond.bytes_eq]

theorem Spells.instructionEnd_eq {bytes : List UInt8} {pieces : List Piece}
    (hspells : Spells bytes pieces) : instructionEnd bytes = .ok (some bytes.length) := by
  have hscan := scanElements_joined hspells.some_piece hspells.few_pieces hspells.formed []
  rw [List.append_nil, ← hspells.bytes_eq] at hscan
  exact instructionEnd_eq_length_iff.mpr hscan

theorem Spells.decode_eq {bytes : List UInt8} {pieces : List Piece}
    (hspells : Spells bytes pieces) :
    decode bytes = .ok (ofElements (pieces.map fun piece => String.ofList piece.value)) := by
  have hsplit := split_joined hspells.some_piece hspells.formed
  have htext : Utf8.decode? bytes = some (joined pieces) :=
    Utf8.decode?_eq_some_iff.mpr hspells.bytes_eq
  rw [decode, hspells.instructionEnd_eq]
  simp only [ne_eq, not_true_eq_false, if_false, htext, hsplit, Except.map, List.map_map]
  rfl

/-- Bytes that are the text of one whole instruction are spelled by elements. -/
theorem exists_spells {bytes : List UInt8} {text : List Char}
    (hend : instructionEnd bytes = .ok (some bytes.length)) (htext : bytes = Utf8.encode text) :
    ∃ pieces, Spells bytes pieces := by
  have hscan := instructionEnd_eq_length_iff.mp hend
  rw [htext] at hscan
  obtain ⟨pieces, later, hsome, hfew, hformed, rfl, hrest⟩ := exists_pieces_of_scanElements hscan
  have hnil : later = [] := Utf8.encode_injective hrest.symm
  rw [hnil, List.append_nil] at htext
  exact ⟨pieces, htext, hsome, hfew, hformed⟩

theorem exists_spells_of_decode {bytes : List UInt8} {i : Instruction}
    (hdecode : decode bytes = .ok i) : ∃ pieces, Spells bytes pieces := by
  unfold decode at hdecode
  split at hdecode
  · cases hdecode
  · cases hdecode
  next length hend =>
    split at hdecode
    · cases hdecode
    next hwhole =>
      have hlength : length = bytes.length := not_not.mp hwhole
      split at hdecode
      · cases hdecode
      next text htext =>
        rw [hlength] at hend
        exact exists_spells hend (Utf8.decode?_eq_some_iff.mp htext)

theorem elements_ofElements {elements : List String} (hsome : elements ≠ []) :
    (ofElements elements).elements = elements := by
  cases elements with
  | nil => exact absurd rfl hsome
  | cons opcode args => rfl

theorem ofElements_elements (i : Instruction) : ofElements i.elements = i := rfl

/-- Bytes decode exactly if they are the text of one to sixty-four elements, each a number of one
to five digits, a point and so many characters, with commas between them and a semicolon at the
end. They decode to the characters of these elements, of which there is one list only. -/
theorem decode_eq_ok_iff (bytes : List UInt8) :
    (∀ i, decode bytes = .ok i ↔
      ∃ pieces, Spells bytes pieces ∧
        i.elements = pieces.map fun piece => String.ofList piece.value) ∧
    ∀ first second, Spells bytes first → Spells bytes second → first = second := by
  refine ⟨fun i => ⟨fun hdecode => ?_, ?_⟩, fun first second => Spells.unique⟩
  · obtain ⟨pieces, hspells⟩ := exists_spells_of_decode hdecode
    have hsame := hspells.decode_eq
    rw [hdecode, Except.ok.injEq] at hsame
    refine ⟨pieces, hspells, ?_⟩
    rw [hsame, elements_ofElements]
    simpa using hspells.some_piece
  · rintro ⟨pieces, hspells, helements⟩
    rw [hspells.decode_eq, ← helements, ofElements_elements]

/-- A length may have zeros in front, and a delimiter among the characters of an element is one of
them. -/
theorem decode_eq_ok_of_zeros_in_front :
    let bytes : List UInt8 := [0x30, 0x32, 0x2E, 0x61, 0x3B, 0x2C, 0x30, 0x30, 0x30, 0x30, 0x31,
      0x2E, 0xE6, 0x97, 0xA5, 0x2C, 0x30, 0x2E, 0x3B]
    let pieces : List Piece := [⟨['0', '2'], ['a', ';']⟩, ⟨['0', '0', '0', '0', '1'], ['日']⟩,
      ⟨['0'], []⟩]
    decode bytes = .ok ⟨"a;", ["日", ""]⟩ ∧
      ∀ others, Spells bytes others → others = pieces := by
  intro bytes pieces
  have hspells : Spells bytes pieces := by
    refine ⟨by decide, by decide, by decide, ?_⟩
    simp only [pieces, List.forall_mem_cons, List.not_mem_nil, false_implies, implies_true,
      and_true]
    refine ⟨?_, ?_, ?_⟩ <;> exact ⟨by decide, by decide, by simp, by decide, by decide⟩
  obtain ⟨hdecode, hunique⟩ := decode_eq_ok_iff bytes
  exact ⟨(hdecode _).mpr ⟨pieces, hspells, by decide⟩, fun others hothers =>
    hunique others pieces hothers hspells⟩

end Instruction

end LongPollTunnel

import Mathlib.Data.List.Forall2
import LongPollTunnel.Proofs.Encoding

/-! # Instructions that are read and written again

Digits that make up a number are those with which it is written, after some zeros. An accepted
text and the one written for what was read from it are therefore spelled by the same characters
and the same lengths, and only zeros in front of lengths are gone. Main statement: writing again
what was read is a normal form of accepted texts, and texts with one normal form are those that
differ in such zeros.
-/

namespace LongPollTunnel

/-! ## Digits and the number that they make up -/

theorem sub_lt_of_isDigit {c : Char} (hc : c.isDigit = true) : c.toNat - '0'.toNat < 10 := by
  have hzero : '0'.toNat = 0x30 := rfl
  have hrange := toNat_of_isDigit hc
  omega

theorem toDigits_of_isDigit {c : Char} (hc : c.isDigit = true) :
    Nat.toDigits 10 (c.toNat - '0'.toNat) = [c] := by
  have hzero : '0'.toNat = 0x30 := rfl
  have hrange := toNat_of_isDigit hc
  rw [Nat.toDigits_of_lt_base (sub_lt_of_isDigit hc), List.singleton_inj]
  apply Char.toNat_inj.mp
  rw [Nat.toNat_digitChar_of_lt_ten (sub_lt_of_isDigit hc)]
  omega

/-- Digits behind a number make up a number whose digits they are. -/
theorem toDigits_append_of_isDigit {digits : List Char}
    (hdigits : ∀ c ∈ digits, c.isDigit = true) {value : Nat} (hvalue : 0 < value) :
    Nat.toDigits 10 value ++ digits = Nat.toDigits 10 (Nat.ofDigitChars 10 digits value) := by
  induction digits generalizing value with
  | nil => simp
  | cons c digits ih =>
      obtain ⟨hc, hlater⟩ := List.forall_mem_cons.mp hdigits
      have hfront := Nat.toDigits_append_toDigits (b := 10) (d := c.toNat - '0'.toNat) (by decide)
        hvalue (sub_lt_of_isDigit hc)
      rw [Nat.ofDigitChars_cons, ← ih hlater (by omega), ← hfront, toDigits_of_isDigit hc,
        List.append_assoc, List.singleton_append]

/-- Digits are some zeros, and then those with which their number is written. -/
theorem exists_zeros_of_isDigit {digits : List Char} (hsome : digits ≠ [])
    (hdigits : ∀ c ∈ digits, c.isDigit = true) :
    ∃ zeros, digits =
      List.replicate zeros '0' ++ Nat.toDigits 10 (Nat.ofDigitChars 10 digits 0) := by
  induction digits with
  | nil => exact absurd rfl hsome
  | cons c digits ih =>
      obtain ⟨hc, hlater⟩ := List.forall_mem_cons.mp hdigits
      rw [Nat.ofDigitChars_cons, Nat.mul_zero, Nat.zero_add]
      rcases Nat.eq_zero_or_pos (c.toNat - '0'.toNat) with hzero | hpositive
      · have hc0 : c = '0' := by
          rw [← List.singleton_inj, ← toDigits_of_isDigit hc, hzero, Nat.toDigits_zero]
        rw [hzero, hc0]
        by_cases hlast : digits = []
        · exact ⟨0, by simp [hlast]⟩
        · obtain ⟨zeros, hzeros⟩ := ih hlast hlater
          refine ⟨zeros + 1, ?_⟩
          rw [List.replicate_succ, List.cons_append, ← hzeros]
      · refine ⟨0, ?_⟩
        rw [← toDigits_append_of_isDigit hlater hpositive, toDigits_of_isDigit hc]
        rfl

namespace Instruction

/-! ## Zeros in front of a length -/

namespace Piece

/-- The length has a zero in front that it could do without. -/
def HasSpareZero (p : Piece) : Prop :=
  ∃ c digits, p.digits = '0' :: c :: digits

/-- The element with its length as it would be written. -/
def normal (p : Piece) : Piece :=
  ofValue p.value

/-- The characters are the same, and so are the digits but for zeros in front. -/
def SameButZeros (p q : Piece) : Prop :=
  p.value = q.value ∧ ∃ zeros zeros' digits,
    p.digits = List.replicate zeros '0' ++ digits ∧ q.digits = List.replicate zeros' '0' ++ digits

variable {p q : Piece}

/-- Formed digits are the normal ones behind zeros. -/
theorem IsFormed.exists_zeros (hformed : p.IsFormed) :
    ∃ zeros, p.digits = List.replicate zeros '0' ++ p.normal.digits := by
  have hzeros := exists_zeros_of_isDigit hformed.some_digit hformed.digits
  rwa [hformed.number] at hzeros

theorem isFormed_normal (hformed : p.IsFormed) : p.normal.IsFormed :=
  isFormed_ofValue hformed.limit

/-- The digits that are written begin with no spare zero. -/
theorem not_hasSpareZero_normal (p : Piece) : ¬ p.normal.HasSpareZero := by
  rintro ⟨c, digits, heq⟩
  have hformed : ∀ c ∈ p.normal.digits, c.isDigit = true := fun _ => isDigit_of_mem_toDigits
  have hnumber : Nat.ofDigitChars 10 p.normal.digits 0 = p.value.length :=
    Nat.ofDigitChars_ten_toDigits
  rw [heq] at hformed hnumber
  -- without the zero the digits make up the same number, in fewer digits than it is written with
  obtain ⟨zeros, hzeros⟩ := exists_zeros_of_isDigit (List.cons_ne_nil c digits)
    (List.forall_mem_cons.mp hformed).2
  have hsame : Nat.ofDigitChars 10 (c :: digits) 0 = p.value.length := hnumber
  have hwritten : Nat.toDigits 10 p.value.length = '0' :: c :: digits := heq
  have hlength := congrArg List.length hzeros
  rw [hsame, hwritten] at hlength
  simp only [List.length_append, List.length_cons] at hlength
  omega

/-- Normalising changes what has a zero to spare. -/
theorem normal_eq_iff (hformed : p.IsFormed) : p.normal = p ↔ ¬ p.HasSpareZero := by
  constructor
  · intro heq
    rw [← heq]
    exact not_hasSpareZero_normal p
  · intro hnone
    obtain ⟨zeros, hzeros⟩ := hformed.exists_zeros
    cases zeros with
    | zero => exact congrArg (Piece.mk · p.value) hzeros.symm
    | succ zeros =>
        have hmore : List.replicate zeros '0' ++ p.normal.digits ≠ [] := by
          simp [normal, ofValue, Nat.toDigits_ne_nil]
        obtain ⟨c, digits, hcons⟩ := List.exists_cons_of_ne_nil hmore
        rw [List.replicate_succ, List.cons_append, hcons] at hzeros
        exact absurd ⟨c, digits, hzeros⟩ hnone

/-- The normal form depends on the value alone. -/
theorem normal_of_value_eq (heq : p.value = q.value) : p.normal = q.normal :=
  congrArg ofValue heq

theorem sameButZeros_iff (hp : p.IsFormed) (hq : q.IsFormed) :
    SameButZeros p q ↔ p.value = q.value := by
  refine ⟨And.left, fun heq => ⟨heq, ?_⟩⟩
  obtain ⟨zeros, hzeros⟩ := hp.exists_zeros
  obtain ⟨zeros', hzeros'⟩ := hq.exists_zeros
  rw [← normal_of_value_eq heq] at hzeros'
  exact ⟨zeros, zeros', p.normal.digits, hzeros, hzeros'⟩

end Piece

/-- Both are texts of as many elements, which are the same but for zeros in front of lengths. -/
def SameButZeros (bytes other : List UInt8) : Prop :=
  ∃ pieces others, Spells bytes pieces ∧ Spells other others ∧
    List.Forall₂ Piece.SameButZeros pieces others

theorem forall₂_sameButZeros_iff {pieces others : List Piece}
    (hpieces : ∀ piece ∈ pieces, piece.IsFormed) (hothers : ∀ piece ∈ others, piece.IsFormed) :
    List.Forall₂ Piece.SameButZeros pieces others ↔
      pieces.map Piece.value = others.map Piece.value := by
  induction pieces generalizing others with
  | nil => cases others <;> simp
  | cons piece pieces ih =>
      cases others with
      | nil => simp
      | cons other others =>
          obtain ⟨hpiece, hpieces'⟩ := List.forall_mem_cons.mp hpieces
          obtain ⟨hother, hothers'⟩ := List.forall_mem_cons.mp hothers
          rw [List.forall₂_cons, Piece.sameButZeros_iff hpiece hother, ih hpieces' hothers',
            List.map_cons, List.map_cons, List.cons.injEq]

/-! ## The text that is written for what was read -/

section

variable {bytes other : List UInt8} {pieces others : List Piece} {i : Instruction}

/-- What was spelled is what was read. -/
theorem Spells.elements_eq (hspells : Spells bytes pieces) (hdecode : decode bytes = .ok i) :
    i.elements.map String.toList = pieces.map Piece.value := by
  rw [hspells.decode_eq, Except.ok.injEq] at hdecode
  rw [← hdecode, elements_ofElements]
  · simp [Function.comp_def]
  · simpa using hspells.some_piece

/-- What is written is spelled as what was read, without spare zeros. -/
theorem Spells.spells_encode (hspells : Spells bytes pieces) (hdecode : decode bytes = .ok i) :
    Spells i.encode (pieces.map Piece.normal) := by
  have hsome := hspells.some_piece
  refine ⟨?_, by simpa using hsome, by simpa using hspells.few_pieces, ?_⟩
  · rw [encode, write, hspells.elements_eq hdecode, writeElements_eq_joined (by simpa using hsome),
      List.map_map]
    rfl
  · exact List.forall_mem_map.mpr fun piece hmem => Piece.isFormed_normal (hspells.formed piece hmem)

theorem Spells.decode_encode_eq (hspells : Spells bytes pieces) (hdecode : decode bytes = .ok i) :
    decode i.encode = .ok i := by
  rw [(hspells.spells_encode hdecode).decode_eq, ← hdecode, hspells.decode_eq, List.map_map]
  rfl

theorem Piece.length_normal_le {piece : Piece} (hformed : piece.IsFormed) :
    (Utf8.encode piece.normal.text).length ≤ (Utf8.encode piece.text).length := by
  obtain ⟨zeros, hzeros⟩ := hformed.exists_zeros
  have htext : piece.text = List.replicate zeros '0' ++ piece.normal.text := by
    rw [text, hzeros, List.append_assoc]
    rfl
  rw [htext, Utf8.encode_append, List.length_append]
  exact Nat.le_add_left _ _

/-- Normalising makes nothing longer. -/
theorem length_joined_normal_le {pieces : List Piece}
    (hformed : ∀ piece ∈ pieces, piece.IsFormed) :
    (Utf8.encode (joined (pieces.map Piece.normal))).length ≤
      (Utf8.encode (joined pieces)).length := by
  induction pieces with
  | nil => exact Nat.le_refl _
  | cons piece pieces ih =>
      obtain ⟨hpiece, hlater⟩ := List.forall_mem_cons.mp hformed
      have hfront := Piece.length_normal_le hpiece
      rw [List.map_cons, joined_cons, joined_cons, Utf8.encode_append, Utf8.encode_append,
        List.length_append, List.length_append]
      cases pieces with
      | nil => simpa using hfront
      | cons second others =>
          have hbehind : ∀ text : List Char,
              (Utf8.encode (',' :: text)).length = (Utf8.encode text).length + 1 := fun text => rfl
          have hothers := ih hlater
          simp only [List.map_cons, reduceCtorEq, if_false, hbehind] at hothers ⊢
          omega

/-- What is written is what was read, exactly if that has no spare zeros. -/
theorem Spells.encode_eq_iff (hspells : Spells bytes pieces) (hdecode : decode bytes = .ok i) :
    i.encode = bytes ↔ ∀ piece ∈ pieces, ¬ piece.HasSpareZero := by
  have hwritten := hspells.spells_encode hdecode
  have hsame : i.encode = bytes ↔ pieces.map Piece.normal = pieces.map id := by
    rw [List.map_id]
    constructor
    · intro heq
      rw [heq] at hwritten
      exact hwritten.unique hspells
    · intro heq
      rw [hwritten.bytes_eq, heq, ← hspells.bytes_eq]
  rw [hsame, List.map_inj_left]
  exact forall₂_congr fun piece hmem => Piece.normal_eq_iff (hspells.formed piece hmem)

/-- Accepted texts that are the same but for zeros in front of lengths say the same. -/
theorem sameButZeros_iff {j : Instruction} (hdecode : decode bytes = .ok i)
    (hother : decode other = .ok j) : SameButZeros bytes other ↔ i = j := by
  constructor
  · rintro ⟨pieces, others, hspells, hspells', hsame⟩
    have hvalues := (forall₂_sameButZeros_iff hspells.formed hspells'.formed).mp hsame
    rw [← hspells.elements_eq hdecode, ← hspells'.elements_eq hother] at hvalues
    have helements := (List.map_inj_right fun _ _ => String.toList_injective).mp hvalues
    rw [← ofElements_elements i, ← ofElements_elements j, helements]
  · rintro rfl
    obtain ⟨pieces, hspells⟩ := exists_spells_of_decode hdecode
    obtain ⟨others, hspells'⟩ := exists_spells_of_decode hother
    refine ⟨pieces, others, hspells, hspells', ?_⟩
    rw [forall₂_sameButZeros_iff hspells.formed hspells'.formed, ← hspells.elements_eq hdecode,
      hspells'.elements_eq hother]

end

/-- The bytes written for what the bytes decode to, and the bytes themselves if they decode to
nothing. -/
def rewritten (bytes : List UInt8) : List UInt8 :=
  match decode bytes with
  | .ok i => i.encode
  | .error _ => bytes

theorem rewritten_of_decode {bytes : List UInt8} {i : Instruction}
    (hdecode : decode bytes = .ok i) : rewritten bytes = i.encode := by
  rw [rewritten, hdecode]

/-- Rewriting twice is rewriting once. -/
theorem rewritten_rewritten (bytes : List UInt8) :
    rewritten (rewritten bytes) = rewritten bytes := by
  cases hdecode : decode bytes with
  | error fault =>
      have hsame : rewritten bytes = bytes := by rw [rewritten, hdecode]
      rw [hsame, hsame]
  | ok i =>
      obtain ⟨pieces, hspells⟩ := exists_spells_of_decode hdecode
      rw [rewritten_of_decode hdecode,
        rewritten_of_decode (hspells.decode_encode_eq hdecode)]

/-- What decodes is written again as bytes that decode to the same, are no longer, and are the
bytes as they were exactly if no length had a spare zero. Two texts that decode say the same
exactly if they differ in such zeros only, and so exactly if they are written again alike; what
is written again stays as it is from then on. -/
theorem rewritten_is_normal_form {bytes other : List UInt8} {i j : Instruction}
    (hdecode : decode bytes = .ok i) (hother : decode other = .ok j) :
    decode i.encode = .ok i ∧ i.encode.length ≤ bytes.length ∧
      (∃ pieces, Spells bytes pieces ∧
        (i.encode = bytes ↔ ∀ piece ∈ pieces, ¬ piece.HasSpareZero)) ∧
      (i = j ↔ SameButZeros bytes other) ∧
      rewritten bytes = i.encode ∧ SameButZeros bytes (rewritten bytes) ∧
      (rewritten bytes = rewritten other ↔ SameButZeros bytes other) ∧
      ∀ bytes, rewritten (rewritten bytes) = rewritten bytes := by
  obtain ⟨pieces, hspells⟩ := exists_spells_of_decode hdecode
  obtain ⟨others, hspells'⟩ := exists_spells_of_decode hother
  have hagain := hspells.decode_encode_eq hdecode
  have hagain' := hspells'.decode_encode_eq hother
  have hlength : i.encode.length ≤ bytes.length := by
    rw [(hspells.spells_encode hdecode).bytes_eq, hspells.bytes_eq]
    exact length_joined_normal_le hspells.formed
  have hinjective : i.encode = j.encode ↔ i = j := by
    refine ⟨fun heq => ?_, congrArg encode⟩
    rwa [heq, hagain', Except.ok.injEq, eq_comm] at hagain
  rw [rewritten_of_decode hdecode, rewritten_of_decode hother, hinjective]
  exact ⟨hagain, hlength, ⟨pieces, hspells, hspells.encode_eq_iff hdecode⟩,
    (sameButZeros_iff hdecode hother).symm, rfl, (sameButZeros_iff hdecode hagain).mpr rfl,
    (sameButZeros_iff hdecode hother).symm, rewritten_rewritten⟩

/-- Two texts with zeros in front of different lengths, and their normal form. -/
theorem rewritten_is_normal_form_of_sync :
    let bytes := Utf8.ofString "04.sync,00001.é;"
    let other := Utf8.ofString "4.sync,01.é;"
    rewritten bytes = Utf8.ofString "4.sync,1.é;" ∧ SameButZeros bytes other ∧
      ¬ ∀ pieces, Spells bytes pieces → ∀ piece ∈ pieces, ¬ piece.HasSpareZero := by
  intro bytes other
  have hdecode : decode bytes = .ok ⟨"sync", ["é"]⟩ := by decide
  have hother : decode other = .ok ⟨"sync", ["é"]⟩ := by decide
  obtain ⟨_, _, ⟨pieces, hspells, hspare⟩, hsame, hrewritten, _⟩ :=
    rewritten_is_normal_form hdecode hother
  refine ⟨hrewritten.trans (by decide), hsame.mp rfl, fun hnone => ?_⟩
  exact absurd (hspare.mpr (hnone pieces hspells)) (by decide)

end Instruction

end LongPollTunnel

import LongPollTunnel.Proofs.Grammar

/-! # The texts that are numbers

A number is told by its digits, which may begin with zeros and may have one plus sign before them.
Main statement: what is read of a text is the number that it denotes, and it is read exactly if it
is within the bound; so a text can only be no number at all or too large a one.
-/

namespace LongPollTunnel.Unsigned

/-- The text is made of digits, perhaps after a plus sign, and they make up the number. -/
inductive Denotes : List Char → Nat → Prop where
  | plain {digits : List Char} (hsome : digits ≠ []) (hdigits : ∀ c ∈ digits, c.isDigit = true) :
      Denotes digits (Nat.ofDigitChars 10 digits 0)
  | signed {digits : List Char} (hsome : digits ≠ [])
      (hdigits : ∀ c ∈ digits, c.isDigit = true) :
      Denotes ('+' :: digits) (Nat.ofDigitChars 10 digits 0)

theorem isDigit_of_digit? {c : Char} {d : Nat} (hc : digit? c = some d) :
    c.isDigit = true := by
  unfold digit? at hc
  split at hc
  next hrange => exact Char.isDigit_iff_toNat.mpr hrange
  · cases hc

/-- What is read of digits is what they make up behind the part that was read before. -/
theorem digits_of_readDigits {limit value number : Nat} {digits : List Char}
    (hread : readDigits limit value digits = .ok number) :
    (∀ c ∈ digits, c.isDigit = true) ∧ number = Nat.ofDigitChars 10 digits value := by
  induction digits generalizing value with
  | nil =>
      cases hread
      exact ⟨nofun, rfl⟩
  | cons c rest ih =>
      unfold readDigits at hread
      split at hread
      · cases hread
      next d hc =>
        have hdigit := isDigit_of_digit? hc
        have hd : d = c.toNat - '0'.toNat :=
          Option.some.inj (hc.symm.trans (digit?_of_isDigit hdigit))
        split at hread
        · cases hread
        · obtain ⟨hrest, hnumber⟩ := ih hread
          refine ⟨List.forall_mem_cons.mpr ⟨hdigit, hrest⟩, ?_⟩
          rw [hnumber, Nat.ofDigitChars_cons, hd, Nat.mul_comm 10]

/-- A plus sign is read away if something follows it. -/
theorem read_plus {limit : Nat} {digits : List Char} (hsome : digits ≠ []) :
    read limit ('+' :: digits) = readDigits limit 0 digits := by
  cases digits with
  | nil => exact absurd rfl hsome
  | cons c rest => rfl

theorem denotes_of_read {limit number : Nat} {text : List Char}
    (hread : read limit text = .ok number) : Denotes text number := by
  unfold read at hread
  split at hread
  · cases hread
  · cases hread
  next digits hsign =>
    obtain ⟨hdigits, rfl⟩ := digits_of_readDigits hread
    exact .signed (fun hnil => hsign (by rw [hnil])) hdigits
  next hsome _ _ =>
    obtain ⟨hdigits, rfl⟩ := digits_of_readDigits hread
    exact .plain hsome hdigits

theorem Denotes.read_eq {limit number : Nat} {text : List Char} (htext : Denotes text number)
    (hlimit : number ≤ limit) : read limit text = .ok number := by
  cases htext with
  | plain hsome hdigits => exact read_digits hsome hdigits hlimit
  | signed hsome hdigits =>
      rw [read_plus hsome]
      exact readDigits_eq_ofDigitChars hdigits hlimit

/-- A text is read as a number exactly if it denotes it and it is within the bound. -/
theorem read_eq_ok_iff {limit number : Nat} {text : List Char} :
    read limit text = .ok number ↔ Denotes text number ∧ number ≤ limit :=
  ⟨fun hread => ⟨denotes_of_read hread, le_of_read hread⟩, fun h => h.1.read_eq h.2⟩

/-- A text denotes one number only. -/
theorem Denotes.unique {text : List Char} {first second : Nat} (hfirst : Denotes text first)
    (hsecond : Denotes text second) : first = second := by
  have hreads := hfirst.read_eq (Nat.le_max_left first second)
  rw [hsecond.read_eq (Nat.le_max_right first second)] at hreads
  exact (Except.ok.inj hreads).symm

/-- No number is read exactly if the text denotes none, or one that is past the bound. -/
theorem exists_read_error_iff {limit : Nat} {text : List Char} :
    (∃ fault, read limit text = .error fault) ↔ ∀ number, Denotes text number → limit < number := by
  constructor
  · rintro ⟨fault, hread⟩ number htext
    by_contra hlimit
    rw [htext.read_eq (Nat.le_of_not_lt hlimit)] at hread
    cases hread
  · intro hall
    cases hread : read limit text with
    | error fault => exact ⟨fault, rfl⟩
    | ok number =>
        obtain ⟨htext, hlimit⟩ := read_eq_ok_iff.mp hread
        exact absurd (hall number htext) (Nat.not_lt.mpr hlimit)

end LongPollTunnel.Unsigned

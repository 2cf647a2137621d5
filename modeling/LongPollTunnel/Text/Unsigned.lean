/-! # Reading bounded whole numbers

A number is written in ASCII digits after an optional plus sign, with any number of
leading zeros. Reading goes from left to right and reports the first thing that is
wrong, so a number that grows past its bound is too large even if junk follows.
-/

namespace LongPollTunnel.Unsigned

/-- Why a text is not a number within its bound. -/
inductive Fault where
  | empty
  | invalidDigit
  | tooLarge
  deriving DecidableEq, Repr

def Fault.message : Fault → String
  | .empty => "cannot parse integer from empty string"
  | .invalidDigit => "invalid digit found in string"
  | .tooLarge => "number too large to fit in target type"

/-- The value of an ASCII digit. -/
def digit? (c : Char) : Option Nat :=
  if '0' ≤ c ∧ c ≤ '9' then some (c.toNat - '0'.toNat) else none

/-- Reads digits after a part worth `value`; no value on the way may pass `limit`. -/
def readDigits (limit value : Nat) : List Char → Except Fault Nat
  | [] => .ok value
  | c :: rest =>
    match digit? c with
    | none => .error .invalidDigit
    | some d =>
      if limit < value * 10 + d then .error .tooLarge
      else readDigits limit (value * 10 + d) rest

theorem le_of_readDigits {limit value number : Nat} {digits : List Char}
    (hvalue : value ≤ limit) (hread : readDigits limit value digits = .ok number) :
    number ≤ limit := by
  induction digits generalizing value with
  | nil => simp only [readDigits, Except.ok.injEq] at hread; omega
  | cons c rest ih =>
      simp only [readDigits] at hread
      split at hread
      · cases hread
      · split at hread
        · cases hread
        · exact ih (by omega) hread

/-- Reads a number of at most `limit`. A sign alone is not a number. -/
def read (limit : Nat) (text : List Char) : Except Fault Nat :=
  match text with
  | [] => .error .empty
  | ['+'] => .error .invalidDigit
  | '+' :: digits => readDigits limit 0 digits
  | digits => readDigits limit 0 digits

/-- What was read is within the bound. -/
theorem le_of_read {limit number : Nat} {text : List Char}
    (hread : read limit text = .ok number) : number ≤ limit := by
  unfold read at hread
  split at hread
  · cases hread
  · cases hread
  · exact le_of_readDigits (Nat.zero_le _) hread
  · exact le_of_readDigits (Nat.zero_le _) hread

/-- The largest values of the widths that settings and messages use. -/
def max16 : Nat := 65535

def max32 : Nat := 4294967295

def max64 : Nat := 18446744073709551615

end LongPollTunnel.Unsigned

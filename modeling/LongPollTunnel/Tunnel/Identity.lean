import LongPollTunnel.Text.Hex

/-! # Identities of tunnels

An identity is 32 hexadecimal digits, written in groups of 8, 4, 4, 4 and 12 with
hyphens between them. New identities are random but for the digits that say so.
-/

namespace LongPollTunnel

/-- A universally unique identity. -/
structure Identity where
  digits : List (Fin 16)
  size_eq : digits.length = 32
  deriving DecidableEq

namespace Identity

/-- How many characters the written form has. -/
def textLength : Nat := 36

/-- Puts the hyphens between the groups of digits. -/
def hyphenate (digits : List Char) : List Char :=
  digits.take 8 ++ '-' :: (digits.drop 8).take 4 ++ '-' :: (digits.drop 12).take 4 ++
    '-' :: (digits.drop 16).take 4 ++ '-' :: digits.drop 20

/-- The characters of the written form. -/
def characters (i : Identity) : List Char :=
  hyphenate (i.digits.map fun d => Hex.lower d.val)

/-- The written form. -/
def text (i : Identity) : String :=
  String.ofList i.characters

/-- The digits of a text, where hyphens may stand only at the given places. -/
def readDigits (hyphens : List Nat) : Nat → List Char → Option (List (Fin 16))
  | _, [] => some []
  | place, c :: rest =>
    if place ∈ hyphens then
      if c = '-' then readDigits hyphens (place + 1) rest else none
    else do
      let value ← Hex.value? c
      let digits ← readDigits hyphens (place + 1) rest
      return Fin.ofNat 16 value :: digits

/-- Reads an identity, with its hyphens or without any, in either case. -/
def ofText? (text : String) : Option Identity :=
  let characters := text.toList
  let hyphens := if characters.length = textLength then [8, 13, 18, 23] else []
  match readDigits hyphens 0 characters with
  | some digits => if h : digits.length = 32 then some ⟨digits, h⟩ else none
  | none => none

/-- The place of the digit that tells how an identity was made: 4 for at random. -/
def versionPlace : Nat := 12

/-- The place of the digit whose two high bits tell the layout. -/
def variantPlace : Nat := 16

/-- The random identity made of 128 bits. -/
def random (entropy : Nat) : Identity where
  digits := (List.range 32).map fun place =>
    let digit := (entropy >>> (4 * place)) % 16
    if place = versionPlace then 4
    else if place = variantPlace then Fin.ofNat 16 (8 + digit % 4)
    else Fin.ofNat 16 digit
  size_eq := by simp

/-- The written form with `x` for each digit, except that the version digit stays and
a proper variant digit becomes `y`. -/
def shape (i : Identity) : String :=
  String.ofList <| hyphenate <| i.digits.zipIdx.map fun (digit, place) =>
    if place = versionPlace then Hex.lower digit.val
    else if place = variantPlace ∧ 8 ≤ digit.val ∧ digit.val < 12 then 'y'
    else 'x'

end Identity

end LongPollTunnel

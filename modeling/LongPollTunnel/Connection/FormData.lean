import LongPollTunnel.Text.Hex
import LongPollTunnel.Text.Utf8

/-! # Form data

The fields of a form are separated by `&`, and name and value by the first `=`. A plus
sign is a space and `%` with two hexadecimal digits is a byte; a `%` without them stands
for itself. Names and values are read as UTF-8 without ever failing.
-/

namespace LongPollTunnel.FormData

/-- Cuts bytes at each separator. -/
def splitAt (separator : UInt8) (bytes : List UInt8) : List (List UInt8) :=
  let (first, others) := bytes.foldr
    (fun byte (current, done) =>
      if byte = separator then ([], current :: done) else (byte :: current, done))
    ([], [])
  first :: others

/-- The byte that two hexadecimal digits at the front stand for. -/
def escaped? : List UInt8 → Option UInt8
  | high :: low :: _ => do
    let high ← Hex.value? (Char.ofNat high.toNat)
    let low ← Hex.value? (Char.ofNat low.toNat)
    return UInt8.ofNat (high * 16 + low)
  | _ => none

/-- Undoes escapes after what is in `seen`, which is in reverse order. The first
`covered` bytes belong to the escape seen last. -/
def unescapeFrom (seen : List UInt8) : Nat → List UInt8 → List UInt8
  | _, [] => seen.reverse
  | covered + 1, _ :: rest => unescapeFrom seen covered rest
  | 0, byte :: rest =>
    if byte = 0x2B then unescapeFrom (0x20 :: seen) 0 rest
    else if byte = 0x25 then
      match escaped? rest with
      | some value => unescapeFrom (value :: seen) 2 rest
      | none => unescapeFrom (byte :: seen) 0 rest
    else unescapeFrom (byte :: seen) 0 rest

/-- The text that a name or a value stands for. -/
def readText (bytes : List UInt8) : String :=
  String.ofList (Utf8.decodeLossy (unescapeFrom [] 0 bytes))

/-- The name and the value of one field. Without `=` the value is empty. -/
def readField (bytes : List UInt8) : String × String :=
  (readText (bytes.takeWhile (· ≠ 0x3D)), readText ((bytes.dropWhile (· ≠ 0x3D)).drop 1))

/-- The fields of a form, in order. Empty ones are left out. -/
def readFields (body : List UInt8) : List (String × String) :=
  ((splitAt 0x26 body).filter (!·.isEmpty)).map readField

end LongPollTunnel.FormData

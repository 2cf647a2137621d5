/-! # UTF-8 byte sequences

A byte string is cut into segments: whole characters, and faults that cover the
longest prefix of a character which the next byte cannot continue. A byte string is
valid exactly when no segment is a fault, and the lenient reading puts U+FFFD in the
place of each fault.
-/

namespace LongPollTunnel.Utf8

/-- Width in bytes of the sequence that `lead` introduces, or `none` if no sequence
starts with it. -/
def leadWidth? (lead : UInt8) : Option Nat :=
  if lead ≤ 0x7F then some 1
  else if 0xC2 ≤ lead ∧ lead ≤ 0xDF then some 2
  else if 0xE0 ≤ lead ∧ lead ≤ 0xEF then some 3
  else if 0xF0 ≤ lead ∧ lead ≤ 0xF4 then some 4
  else none

/-- Bytes that continue a sequence. -/
def isContinuation (byte : UInt8) : Bool :=
  decide (0x80 ≤ byte ∧ byte ≤ 0xBF)

/-- Bytes that may stand second after `lead`. The narrowed ranges keep out overlong
forms, surrogates and everything above U+10FFFF. -/
def isSecond (lead byte : UInt8) : Bool :=
  if lead = 0xE0 then decide (0xA0 ≤ byte ∧ byte ≤ 0xBF)
  else if lead = 0xED then decide (0x80 ≤ byte ∧ byte ≤ 0x9F)
  else if lead = 0xF0 then decide (0x90 ≤ byte ∧ byte ≤ 0xBF)
  else if lead = 0xF4 then decide (0x80 ≤ byte ∧ byte ≤ 0x8F)
  else isContinuation byte

/-- The six low bits of a continuation byte. -/
def payload (byte : UInt8) : Nat :=
  byte.toNat - 0x80

def char2 (a b : UInt8) : Char :=
  Char.ofNat ((a.toNat - 0xC0) * 64 + payload b)

def char3 (a b c : UInt8) : Char :=
  Char.ofNat ((a.toNat - 0xE0) * 4096 + payload b * 64 + payload c)

def char4 (a b c d : UInt8) : Char :=
  Char.ofNat ((a.toNat - 0xF0) * 262144 + payload b * 4096 + payload c * 64 + payload d)

/-- The segment that begins with `lead`: its character, or `none` for a fault, and
how many bytes of `rest` it covers. -/
def segment (lead : UInt8) (rest : List UInt8) : Option Char × Nat :=
  match leadWidth? lead, rest with
  | none, _ => (none, 0)
  | some 1, _ => (some (Char.ofNat lead.toNat), 0)
  | some _, [] => (none, 0)
  | some 2, b :: _ => if isContinuation b then (some (char2 lead b), 1) else (none, 0)
  | some 3, [b] => (none, if isSecond lead b then 1 else 0)
  | some 3, b :: c :: _ =>
    if !isSecond lead b then (none, 0)
    else if isContinuation c then (some (char3 lead b c), 2)
    else (none, 1)
  | some _, [b] => (none, if isSecond lead b then 1 else 0)
  | some _, [b, c] =>
    (none, if !isSecond lead b then 0 else if isContinuation c then 2 else 1)
  | some _, b :: c :: d :: _ =>
    if !isSecond lead b then (none, 0)
    else if !isContinuation c then (none, 1)
    else if isContinuation d then (some (char4 lead b c d), 3)
    else (none, 2)

/-- The segments after those in `seen`, which is in reverse order. The first `covered`
bytes belong to the segment seen last. -/
def segmentsFrom (seen : List (Option Char)) : Nat → List UInt8 → List (Option Char)
  | _, [] => seen.reverse
  | covered + 1, _ :: rest => segmentsFrom seen covered rest
  | 0, lead :: rest =>
    segmentsFrom ((segment lead rest).1 :: seen) (segment lead rest).2 rest

/-- The characters and faults of a byte string, in order. -/
def segments (bytes : List UInt8) : List (Option Char) :=
  segmentsFrom [] 0 bytes

/-- The characters of a byte string that is valid throughout. -/
def decode? (bytes : List UInt8) : Option (List Char) :=
  (segments bytes).mapM id

/-- The characters of a byte string, with U+FFFD for each fault. -/
def decodeLossy (bytes : List UInt8) : List Char :=
  (segments bytes).map (·.getD '\uFFFD')

/-- The bytes of a text. -/
def encode (text : List Char) : List UInt8 :=
  text.flatMap String.utf8EncodeChar

@[simp] theorem encode_nil : encode [] = [] := rfl

@[simp] theorem encode_append (first second : List Char) :
    encode (first ++ second) = encode first ++ encode second := by
  simp [encode]

/-- The bytes of a string. -/
def ofString (text : String) : List UInt8 :=
  encode text.toList

end LongPollTunnel.Utf8

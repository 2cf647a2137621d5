import LongPollTunnel.Instruction.Framing
import LongPollTunnel.Text.Unsigned

/-! # Decoding an instruction

Exactly one complete instruction is decoded: its end has to be the end of the bytes,
which have to be UTF-8 throughout. The characters are then cut at the same places as
the scan for the end found, this time by counting decoded characters.
-/

namespace LongPollTunnel.Instruction

/-- Where in an instruction a reader of its characters stands. What was read of the
element is in reverse order. -/
inductive Cursor where
  | inLength (digits : List Char)
  | inText (left : Nat) (read : List Char)

/-- Cuts characters into elements. -/
def splitFrom : Cursor → List Char → Except Fault (List (List Char))
  | .inLength _, [] => .error .incomplete
  | .inLength digits, c :: rest =>
    if c = '.' then
      match Unsigned.read Unsigned.max64 digits.reverse with
      | .ok length => splitFrom (.inText length []) rest
      | .error _ => .error .missingLength
    else splitFrom (.inLength (c :: digits)) rest
  | .inText (left + 1) read, c :: rest => splitFrom (.inText left (c :: read)) rest
  | .inText 0 read, c :: rest =>
    if c = ';' then .ok [read.reverse]
    else if c = ',' then (splitFrom (.inLength []) rest).map (read.reverse :: ·)
    else .error (.unexpectedTerminator c)
  | .inText _ _, [] => .error .incomplete

/-- The elements of a written instruction. -/
def split (characters : List Char) : Except Fault (List (List Char)) :=
  splitFrom (.inLength []) characters

/-- Decodes bytes that are one complete instruction and nothing else. -/
def decode (bytes : List UInt8) : Except Fault Instruction :=
  match Framing.instructionEnd bytes with
  | .error fault => .error fault
  | .ok none => .error .incomplete
  | .ok (some length) =>
    if length ≠ bytes.length then .error .trailingData
    else
      match Utf8.decode? bytes with
      | none => .error .invalidUtf8
      | some characters =>
        (split characters).map fun elements => ofElements (elements.map String.ofList)

end LongPollTunnel.Instruction

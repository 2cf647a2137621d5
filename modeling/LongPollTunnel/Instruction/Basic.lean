import LongPollTunnel.Text.Quoted
import LongPollTunnel.Text.Utf8

/-! # Instructions and their written form

An instruction is an opcode with arguments. It is written as a comma separated list of
elements that ends in a semicolon; each element is its length in characters, a point,
and its text. The limits below bind readers only: writing has none.
-/

namespace LongPollTunnel

/-- One instruction of the remote desktop protocol. -/
structure Instruction where
  opcode : String
  args : List String
  deriving DecidableEq, Repr, Inhabited

namespace Instruction

/-- Most digits that the length of an element may have. -/
def maxLengthDigits : Nat := 5

/-- Most characters that an element may have. -/
def maxElementLength : Nat := 8192

/-- Most elements, opcode included, that an instruction may have. -/
def maxElements : Nat := 64

/-- The opcode followed by the arguments. -/
def elements (i : Instruction) : List String :=
  i.opcode :: i.args

/-- The instruction with the given elements; the first one is the opcode. -/
def ofElements : List String → Instruction
  | [] => ⟨"", []⟩
  | opcode :: args => ⟨opcode, args⟩

/-- An element is its length in characters, a point, and its characters. -/
def writeElement (element : List Char) : List Char :=
  Nat.toDigits 10 element.length ++ '.' :: element

/-- Elements are separated by commas and closed by a semicolon. -/
def writeElements : List (List Char) → List Char
  | [] => [';']
  | [last] => writeElement last ++ [';']
  | element :: rest => writeElement element ++ ',' :: writeElements rest

/-- The characters of the written form. -/
def write (i : Instruction) : List Char :=
  writeElements (i.elements.map String.toList)

/-- The written form as a text. -/
def text (i : Instruction) : String :=
  String.ofList i.write

/-- The written form as it travels. -/
def encode (i : Instruction) : List UInt8 :=
  Utf8.encode i.write

/-- The instruction without opcode and arguments closes a response. -/
def terminator : List UInt8 :=
  encode ⟨"", []⟩

/-- Why bytes are not an instruction. -/
inductive Fault where
  | invalidLengthCharacter (found : Char)
  | missingLength
  | lengthTooLong
  | elementTooLong (length : Nat)
  | tooManyElements
  | unexpectedTerminator (found : Char)
  | invalidUtf8
  | incomplete
  | trailingData
  deriving DecidableEq, Repr

def Fault.message : Fault → String
  | .invalidLengthCharacter found =>
    "Non-numeric character in element length: " ++ Quoted.ofChar found
  | .missingLength => "Element length is missing"
  | .lengthTooLong =>
    "Element length has more than " ++ maxLengthDigits.repr ++ " digits"
  | .elementTooLong length =>
    "Element of " ++ length.repr ++ " characters exceeds the maximum of " ++
      maxElementLength.repr
  | .tooManyElements =>
    "Instruction has more than " ++ maxElements.repr ++ " elements"
  | .unexpectedTerminator found =>
    "Element terminator expected but found " ++ Quoted.ofChar found
  | .invalidUtf8 => "Invalid UTF-8 in element value"
  | .incomplete => "Incomplete instruction"
  | .trailingData => "Unexpected data after instruction terminator"

end Instruction

end LongPollTunnel

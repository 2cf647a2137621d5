import LongPollTunnel.Instruction.Basic

/-! # Finding where an instruction ends

The end of an instruction is found without decoding it: a length is read, then as many
characters are passed over by the widths that their lead bytes announce. A scan of the
bytes received so far is done, refuses them for good, or has to wait for more; what
follows a finished scan never matters to it.
-/

namespace LongPollTunnel.Framing

open Instruction

/-- What a scan makes of the bytes received so far: a value with the bytes after it, a
fault that no further byte can mend, or nothing yet. -/
inductive Scan (α : Type) where
  | done (value : α) (rest : List UInt8)
  | malformed (fault : Fault)
  | undecided
  deriving DecidableEq, Repr

/-- Runs `next` on what a finished scan leaves. -/
def Scan.andThen {α β : Type} (scan : Scan α) (next : α → List UInt8 → Scan β) : Scan β :=
  match scan with
  | .done value rest => next value rest
  | .malformed fault => .malformed fault
  | .undecided => .undecided

@[simp] theorem Scan.andThen_done {α β : Type} (value : α) (rest : List UInt8)
    (next : α → List UInt8 → Scan β) :
    (Scan.done value rest).andThen next = next value rest := rfl

@[simp] theorem Scan.andThen_malformed {α β : Type} (fault : Fault)
    (next : α → List UInt8 → Scan β) :
    (Scan.malformed fault : Scan α).andThen next = .malformed fault := rfl

@[simp] theorem Scan.andThen_undecided {α β : Type} (next : α → List UInt8 → Scan β) :
    (Scan.undecided : Scan α).andThen next = .undecided := rfl

def isDigit (byte : UInt8) : Bool :=
  decide (0x30 ≤ byte ∧ byte ≤ 0x39)

/-- Reads a length up to its point, after `digits` digits worth `value`. -/
def scanLength (digits value : Nat) : List UInt8 → Scan Nat
  | [] => .undecided
  | byte :: rest =>
    if isDigit byte then
      if digits = maxLengthDigits then .malformed .lengthTooLong
      else scanLength (digits + 1) (value * 10 + (byte.toNat - 0x30)) rest
    else if byte = 0x2E then
      if digits = 0 then .malformed .missingLength else .done value rest
    else .malformed (.invalidLengthCharacter (Char.ofNat byte.toNat))

/-- Drops `count` bytes, if there are so many. -/
def dropExactly? : Nat → List UInt8 → Option (List UInt8)
  | 0, bytes => some bytes
  | _ + 1, [] => none
  | count + 1, _ :: rest => dropExactly? count rest

theorem dropExactly?_eq_some_iff {count : Nat} {bytes rest : List UInt8} :
    dropExactly? count bytes = some rest ↔ count ≤ bytes.length ∧ rest = bytes.drop count := by
  induction bytes generalizing count with
  | nil => cases count <;> simp [dropExactly?, eq_comm]
  | cons byte tail ih => cases count <;> simp [dropExactly?, ih, eq_comm]

/-- Passes over `count` characters by the widths that their lead bytes announce. -/
def skipCharacters : Nat → List UInt8 → Scan Unit
  | 0, bytes => .done () bytes
  | _ + 1, [] => .undecided
  | count + 1, lead :: rest =>
    match Utf8.leadWidth? lead with
    | none => .malformed .invalidUtf8
    | some width =>
      match dropExactly? (width - 1) rest with
      | none => .undecided
      | some rest => skipCharacters count rest

/-- Passes over one element up to its terminator. -/
def scanElement (bytes : List UInt8) : Scan Unit :=
  (scanLength 0 0 bytes).andThen fun length rest =>
    if maxElementLength < length then .malformed (.elementTooLong length)
    else skipCharacters length rest

/-- Passes over elements to the end of the instruction. At most `room` elements may
come; one more is refused once its own text has passed. -/
def scanElements : Nat → List UInt8 → Scan Unit
  | 0, bytes => (scanElement bytes).andThen fun _ _ => .malformed .tooManyElements
  | room + 1, bytes =>
    (scanElement bytes).andThen fun _ rest =>
      match rest with
      | [] => .undecided
      | terminator :: rest =>
        if terminator = 0x3B then .done () rest
        else if terminator = 0x2C then scanElements room rest
        else .malformed (.unexpectedTerminator (Char.ofNat terminator.toNat))

/-- Scans the instruction that `bytes` begins with. -/
def scanInstruction (bytes : List UInt8) : Scan Unit :=
  scanElements maxElements bytes

/-- How many bytes the first instruction takes, or `none` while its end is not in
sight. -/
def instructionEnd (bytes : List UInt8) : Except Fault (Option Nat) :=
  match scanInstruction bytes with
  | .done _ rest => .ok (some (bytes.length - rest.length))
  | .undecided => .ok none
  | .malformed fault => .error fault

/-- Cuts off complete instructions, at most `count` of them: the bytes that stay and
the fault they begin with, if they do. -/
def cutComplete : Nat → List UInt8 → List UInt8 × Option Fault
  | 0, bytes => (bytes, none)
  | count + 1, bytes =>
    match scanInstruction bytes with
    | .done _ rest => cutComplete count rest
    | .undecided => (bytes, none)
    | .malformed fault => (bytes, some fault)

/-- The length of the longest prefix made of complete instructions, and the fault that
follows it, if one does. No instruction is empty, so there are fewer of them than
`bytes.length + 1`. -/
def completePrefix (bytes : List UInt8) : Nat × Option Fault :=
  let (rest, fault) := cutComplete (bytes.length + 1) bytes
  (bytes.length - rest.length, fault)

end LongPollTunnel.Framing

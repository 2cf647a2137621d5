import LongPollTunnel.Text.Hex

/-! # Showing a character between quotes

Messages about a misplaced byte show the character whose code is the byte, between
single quotes. What would not be visible is escaped. The rule is that of the first 256
code points; any other character stands for itself.
-/

namespace LongPollTunnel.Quoted

/-- A code below 256 in hexadecimal, without leading zeros. -/
def hex (code : Nat) : List Char :=
  if code < 16 then [Hex.lower code] else [Hex.lower (code / 16), Hex.lower (code % 16)]

/-- Control characters, the no-break space and the soft hyphen are not visible. -/
def isVisible (code : Nat) : Bool :=
  decide ((0x20 ≤ code ∧ code ≤ 0x7E) ∨ (0xA1 ≤ code ∧ code ≠ 0xAD))

/-- The text between the quotes. -/
def escaped (c : Char) : List Char :=
  if c = '\x00' then ['\\', '0']
  else if c = '\t' then ['\\', 't']
  else if c = '\n' then ['\\', 'n']
  else if c = '\r' then ['\\', 'r']
  else if c = '\'' then ['\\', '\'']
  else if c = '\\' then ['\\', '\\']
  else if isVisible c.toNat then [c]
  else ['\\', 'u', '{'] ++ hex c.toNat ++ ['}']

/-- The quoted form of a character. -/
def ofChar (c : Char) : String :=
  String.ofList (['\''] ++ escaped c ++ ['\''])

end LongPollTunnel.Quoted

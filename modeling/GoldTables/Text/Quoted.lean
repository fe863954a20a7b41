import GoldTables.Text.Grapheme
import GoldTables.Text.Ignorable
import GoldTables.Text.Printable

/-!
# Quoted text

A text shown inside a message stands between double quotes. Inside the quotes
the common controls, the quote and the backslash have short escapes; any other
character that cannot be shown, that leaves no trace when shown, or that would
be drawn on the character before it, is written as its code point in
hexadecimal. No line break is left in the result.
-/

namespace GoldTables.Text

/-! ## Hexadecimal numbers -/

/-- A number in hexadecimal, with lower-case digits and no leading zeros. -/
def hexDigits (n : Nat) : List Char := Nat.toDigits 16 n

/-- A byte as two lower-case hexadecimal digits. -/
def hexByte (b : UInt8) : List Char :=
  [Nat.digitChar (b.toNat / 16), Nat.digitChar (b.toNat % 16)]

/-! ## Escapes -/

/-- The characters that a reader can tell apart when they stand between the quotes. -/
def isLegible (c : Char) : Bool :=
  isPrintable c && !isDefaultIgnorable c && !isAttached c

/-- A character as it is written between the quotes. -/
def quotedChar (c : Char) : List Char :=
  if c = '\x00' then ['\\', '0']
  else if c = '\t' then ['\\', 't']
  else if c = '\r' then ['\\', 'r']
  else if c = '\n' then ['\\', 'n']
  else if c = '"' then ['\\', '"']
  else if c = '\\' then ['\\', '\\']
  else if ' ' ≤ c ∧ c ≤ '~' then [c]
  else if isLegible c then [c]
  else ['\\', 'u', '\x7b'] ++ hexDigits c.toNat ++ ['\x7d']

/-- A text between double quotes, with its escapes. -/
def quoted (s : String) : String :=
  String.ofList ('"' :: s.toList.flatMap quotedChar ++ ['"'])

end GoldTables.Text

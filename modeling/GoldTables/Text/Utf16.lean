/-!
# UTF-16

Texts as sequences of 16-bit units. Encoding writes a character above U+FFFF
as a pair of surrogates; decoding never fails, and puts U+FFFD in place of
each surrogate that is not part of a pair.
-/

namespace GoldTables.Text

/-- The first unit of a pair. -/
def isHighSurrogate (u : UInt16) : Bool := 0xD800 ≤ u && u < 0xDC00

/-- The second unit of a pair. -/
def isLowSurrogate (u : UInt16) : Bool := 0xDC00 ≤ u && u < 0xE000

/-- The character that a pair of surrogates stands for. -/
def ofSurrogates (high low : UInt16) : Char :=
  Char.ofNat (0x10000 + (high.toNat - 0xD800) * 0x400 + (low.toNat - 0xDC00))

/-- The units of one character. -/
def utf16Char (c : Char) : List UInt16 :=
  if c.toNat < 0x10000 then [UInt16.ofNat c.toNat]
  else
    [UInt16.ofNat (0xD800 + (c.toNat - 0x10000) / 0x400),
      UInt16.ofNat (0xDC00 + (c.toNat - 0x10000) % 0x400)]

/-- The units of a text. -/
def toUtf16 (s : String) : List UInt16 := s.toList.flatMap utf16Char

/-- The characters of a sequence of units, put behind the reversed list `done`. -/
def ofUtf16Onto (done : List Char) : List UInt16 → List Char
  | [] => done.reverse
  | [u] =>
    let c := if isHighSurrogate u || isLowSurrogate u then '\uFFFD' else Char.ofNat u.toNat
    (c :: done).reverse
  | u :: v :: rest =>
    if isHighSurrogate u then
      if isLowSurrogate v then ofUtf16Onto (ofSurrogates u v :: done) rest
      else ofUtf16Onto ('\uFFFD' :: done) (v :: rest)
    else if isLowSurrogate u then ofUtf16Onto ('\uFFFD' :: done) (v :: rest)
    else ofUtf16Onto (Char.ofNat u.toNat :: done) (v :: rest)

/-- The text of a sequence of units. -/
def ofUtf16 (units : List UInt16) : String := String.ofList (ofUtf16Onto [] units)

end GoldTables.Text

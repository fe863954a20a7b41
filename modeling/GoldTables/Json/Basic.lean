/-!
# JSON values

Values of the JSON data format. The members of an object keep their order. A
number that is not a plain integer has no value here, only a spelling.
-/

namespace GoldTables

/-- Whether a character may stand in the spelling of a number. -/
def isNumeralChar (c : Char) : Bool :=
  c.isDigit || c = '+' || c = '-' || c = '.' || c = 'e' || c = 'E'

/-- The spelling of a number. -/
structure Numeral where
  text : String
  isNumeral : text.toList.all isNumeralChar = true
  deriving DecidableEq

namespace Numeral

/-- A text as the spelling of a number, if it can be one. -/
def ofText? (text : String) : Option Numeral :=
  if h : text.toList.all isNumeralChar = true then some ⟨text, h⟩ else none

instance : Inhabited Numeral := ⟨⟨"0", by decide⟩⟩

/-- Lets a spelling stand for the numeral; any other text stands for zero. -/
instance : Coe String Numeral := ⟨fun text => (ofText? text).getD default⟩

instance : Coe Numeral String := ⟨text⟩

end Numeral

/-- A JSON value. -/
inductive Json where
  | null
  | bool (value : Bool)
  | int (value : Int)
  /-- A number that is not a plain integer, as it is spelled. -/
  | fraction (spelling : Numeral)
  | str (value : String)
  | arr (items : List Json)
  | obj (members : List (String × Json))
  /-- A string of a document that spells no text, or an object with such a key. It has a place
      in the document and no value. -/
  | unreadable
  deriving Inhabited

namespace Json

/-- The number of a 16-bit unsigned integer. -/
def ofUInt16 (n : UInt16) : Json := .int n.toNat

/-- The value of an optional 16-bit unsigned integer. -/
def ofUInt16? : Option UInt16 → Json
  | some n => ofUInt16 n
  | none => .null

end Json

end GoldTables

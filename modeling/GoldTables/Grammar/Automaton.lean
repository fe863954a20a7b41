/-!
# The tables of the automaton

The lexer's automaton goes from state to state on sets of characters. A set
holds code points below U+10000 only.
-/

namespace GoldTables

/-- An inclusive range of code points below U+10000. -/
structure CharacterRange where
  start : UInt16
  last : UInt16
  deriving DecidableEq

/-- Whether the range holds a character. -/
def CharacterRange.contains (range : CharacterRange) (c : Char) : Bool :=
  range.start.toNat ≤ c.toNat && c.toNat ≤ range.last.toNat

/-- A set of characters. -/
structure CharacterSet where
  codepage : UInt16
  ranges : List CharacterRange
  deriving DecidableEq

/-- Whether some range of the set holds a character (`CharacterSet.contains`). -/
def CharacterSet.contains (set : CharacterSet) (c : Char) : Bool :=
  set.ranges.any fun range => range.contains c

/-- A step of the automaton on the characters of a set. -/
structure DfaEdge where
  set : UInt16
  target : UInt16
  deriving DecidableEq

/-- A state of the automaton. The first edge that takes a character is followed. -/
structure DfaState where
  /-- The symbol of a text that ends here. -/
  accept : Option UInt16
  edges : List DfaEdge
  deriving DecidableEq

end GoldTables

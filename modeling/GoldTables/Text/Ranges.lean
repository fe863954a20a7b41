/-!
# Sets of characters given by ranges

A character class of the Unicode standard is kept as the list of its maximal
inclusive ranges of code points, in ascending order.
-/

namespace GoldTables.Text

/-- Inclusive ranges of code points. -/
abbrev CodeRanges := List (Nat × Nat)

/-- Membership of a character: some range holds its code point. -/
def CodeRanges.contains (ranges : CodeRanges) (c : Char) : Bool :=
  ranges.any fun range => range.1 ≤ c.toNat && c.toNat ≤ range.2

end GoldTables.Text

/-!
# Positions in a text

A position is a line and a column, both counted from zero. A line feed starts
the next line, a carriage return leaves no trace, and any other character
takes one column.
-/

namespace GoldTables

/-- A line and a column of a text. -/
structure Position where
  line : Nat
  column : Nat
  deriving DecidableEq

/-- The start of a text. -/
def Position.start : Position := ⟨0, 0⟩

/-- The position behind one more character, as `consume` counts. -/
def Position.advance (position : Position) (c : Char) : Position :=
  if c = '\n' then ⟨position.line + 1, 0⟩
  else if c = '\r' then position
  else { position with column := position.column + 1 }

/-- The position behind more characters. -/
def Position.advanceBy (position : Position) (text : List Char) : Position :=
  text.foldl Position.advance position

@[simp] theorem Position.advanceBy_nil (position : Position) :
    position.advanceBy [] = position := rfl

theorem Position.advanceBy_append (position : Position) (text more : List Char) :
    position.advanceBy (text ++ more) = (position.advanceBy text).advanceBy more := by
  simp [Position.advanceBy]

/-- A position in words. -/
def Position.text (position : Position) : String :=
  s!"line {position.line}, column {position.column}"

end GoldTables

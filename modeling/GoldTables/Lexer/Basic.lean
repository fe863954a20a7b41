import GoldTables.Grammar.Basic
import GoldTables.Token

/-!
# Lexers

A lexer reads a text from left to right. It keeps the characters that are
still to be consumed, of which it has drawn the first few from its source to
look at them, the position of the next one, and the groups that are open.

Results:
* `consume_rest`, `length_consume`: what consuming leaves of the rest.
-/

namespace GoldTables

/-- A group that is open: what was gathered so far, and where it began. -/
structure OpenGroup where
  group : UInt16
  text : String
  position : Position
  deriving DecidableEq

/-- A lexer in the middle of a text. -/
structure Lexer where
  /-- The characters that are still to be consumed. -/
  rest : List Char
  /-- How many of them were drawn from the source. -/
  buffered : Nat
  /-- How many characters were drawn since a source was opened. -/
  drawn : Nat
  position : Position
  /-- The open groups, the innermost first. -/
  groups : List OpenGroup

namespace Lexer

/-- A lexer without a text (`Lexer.new`). -/
def empty : Lexer := ⟨[], 0, 0, .start, []⟩

/-- Drops the text and the open groups (`Lexer.reset`). -/
def reset (lexer : Lexer) : Lexer :=
  { lexer with rest := [], buffered := 0, position := .start, groups := [] }

/-- Starts on a text (`Lexer.open`). -/
def openText (text : String) : Lexer := { empty with rest := text.toList }

/-- Whether a group is open (`in_group`). -/
def inGroup (lexer : Lexer) : Bool := !lexer.groups.isEmpty

/-- How many groups are open (`group_depth`). -/
def depth (lexer : Lexer) : Nat := lexer.groups.length

/-- Draws characters until at least a number of them are buffered, if there are as many
    (`lookahead`). -/
def draw (lexer : Lexer) (n : Nat) : Lexer :=
  { lexer with
    buffered := max lexer.buffered n
    drawn := lexer.drawn + (n - lexer.buffered) }

/-- Consumes buffered characters, at most a number of them (`consume`). -/
def consume (lexer : Lexer) (n : Nat) : Lexer :=
  let n := min n lexer.buffered
  { lexer with
    rest := lexer.rest.drop n
    buffered := lexer.buffered - n
    position := lexer.position.advanceBy (lexer.rest.take n) }

theorem consume_rest {lexer : Lexer} {n : Nat} (h : n ≤ lexer.buffered) :
    (lexer.consume n).rest = lexer.rest.drop n := by
  simp [consume, Nat.min_eq_left h]

theorem length_consume {lexer : Lexer} {n : Nat} (h : n ≤ lexer.buffered) :
    (lexer.consume n).rest.length = lexer.rest.length - n := by
  simp [consume_rest h]

@[simp] theorem consume_groups (lexer : Lexer) (n : Nat) :
    (lexer.consume n).groups = lexer.groups := rfl

end Lexer

end GoldTables

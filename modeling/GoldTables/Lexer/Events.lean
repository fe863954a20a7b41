import GoldTables.Lexer.Groups
import GoldTables.Log
import GoldTables.Text.Quoted

/-!
# What a lexer notices

The groups that open while tokens are read.
-/

namespace GoldTables

namespace Lexer

/-- A group that opens is worth noticing. -/
def groupStepEvents (lexer : Lexer) (grammar : Grammar) : List Event :=
  let (stretch, lexer) := lexer.peek grammar
  match lexer.opens? grammar stretch.symbol with
  | some group =>
    let name := ((grammar.group? group).map Group.name).getD ""
    [⟨.trace, s!"group {Text.quoted name} opens at {lexer.position.text}"⟩]
  | none => []

/-- The groups that open on the way to the next token, in at most a number of steps. -/
def stepsWithinEvents (grammar : Grammar) : Nat → Lexer → List Event
  | 0, _ => []
  | n + 1, lexer =>
    lexer.groupStepEvents grammar ++
      match lexer.groupStep grammar with
      | .token _ _ => []
      | .again next => stepsWithinEvents grammar n next

/-- The groups that open while the next token is read. -/
def nextTokenEvents (lexer : Lexer) (grammar : Grammar) : List Event :=
  stepsWithinEvents grammar lexer.stepBound lexer

/-- The groups that open while at most a number of tokens are read. -/
def tokensUpToEvents (grammar : Grammar) : Nat → Lexer → List Event
  | 0, _ => []
  | n + 1, lexer =>
    lexer.nextTokenEvents grammar ++
      match lexer.nextToken? grammar with
      | none => []
      | some (token, next) =>
        if token.symbol = grammar.endSymbol then [] else tokensUpToEvents grammar n next

/-- The groups that open while all tokens are read. -/
def tokenizeEvents (lexer : Lexer) (grammar : Grammar) : List Event :=
  tokensUpToEvents grammar (lexer.work + 2) lexer

end Lexer

end GoldTables

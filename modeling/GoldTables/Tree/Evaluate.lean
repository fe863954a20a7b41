import GoldTables.Token

/-!
# Values of trees

A function from a production and the tokens of its body to a value gives every
tree a value: every reduction is replaced by its value once the reductions
among its children have been. Texts stay as they are.
-/

namespace GoldTables

mutual

/-- A token with its value in place of its tree. -/
def Token.evaluate (value : UInt16 → List Token → Json) (token : Token) : Token :=
  match token with
  | ⟨symbol, .reduction production children, position, state⟩ =>
    ⟨symbol, .value (value production (Token.evaluateAll value children)), position, state⟩
  | ⟨symbol, .text text, position, state⟩ => ⟨symbol, .text text, position, state⟩
  | ⟨symbol, .value result, position, state⟩ => ⟨symbol, .value result, position, state⟩

/-- Tokens with their values in place of their trees. -/
def Token.evaluateAll (value : UInt16 → List Token → Json) : List Token → List Token
  | [] => []
  | token :: tokens => token.evaluate value :: Token.evaluateAll value tokens

end

end GoldTables

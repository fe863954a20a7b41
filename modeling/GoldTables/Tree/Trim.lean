import GoldTables.Grammar.Basic
import GoldTables.Token

/-!
# Trimmed trees

In a trimmed tree no token was built by a chain production. The token that it
renamed stands in place of it, with its own payload and position, and with the
symbol and the state of the token that it was renamed to.
-/

namespace GoldTables

/-- What stands in place of a token with a symbol, a production, trimmed children, a position
    and a state. -/
def Tables.trimmedToken (tables : Tables) (symbol production : UInt16) (children : List Token)
    (position : Position) (state : UInt16) : Token :=
  match (tables.production? production).any tables.isChain, children with
  | true, [only] => { only with symbol, state }
  | _, _ => ⟨symbol, .reduction production children, position, state⟩

mutual

/-- A tree without chain productions. -/
def Tables.trim (tables : Tables) (token : Token) : Token :=
  match token with
  | ⟨symbol, .reduction production children, position, state⟩ =>
    tables.trimmedToken symbol production (tables.trimAll children) position state
  | ⟨symbol, .text text, position, state⟩ => ⟨symbol, .text text, position, state⟩
  | ⟨symbol, .value value, position, state⟩ => ⟨symbol, .value value, position, state⟩

/-- Trees without chain productions. -/
def Tables.trimAll (tables : Tables) : List Token → List Token
  | [] => []
  | token :: tokens => tables.trim token :: tables.trimAll tokens

end

end GoldTables

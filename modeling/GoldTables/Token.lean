import GoldTables.Json.Basic
import GoldTables.Position

/-!
# Tokens

A token is an occurrence of a symbol in a text. A terminal's token carries the
text it matched; a nonterminal's token carries the production that built it
and the tokens of its body, and is thereby the root of a tree. Whoever walks
over the tree may put a computed value in place of either.
-/

namespace GoldTables

mutual

/-- An occurrence of a symbol. -/
structure Token where
  symbol : UInt16
  payload : Payload
  position : Position
  /-- The parser's state behind the token, once it has been parsed. -/
  state : UInt16

/-- What a token carries. -/
inductive Payload where
  /-- The text that was matched. -/
  | text (text : String)
  /-- A production, and the tokens of its body from left to right. -/
  | reduction (production : UInt16) (children : List Token)
  /-- A value computed from what was there. -/
  | value (value : Json)

end

/-- The text of a payload that is one. -/
def Payload.text? : Payload → Option String
  | .text s => some s
  | _ => none

/-- The production and the children of a payload that is a reduction. -/
def Payload.reduction? : Payload → Option (UInt16 × List Token)
  | .reduction production children => some (production, children)
  | _ => none

/-- The value of a payload that is one. -/
def Payload.value? : Payload → Option Json
  | .value v => some v
  | _ => none

/-- The token of a text, not parsed yet (`from_text`). -/
def Token.ofText (symbol : UInt16) (text : List Char) (position : Position) : Token :=
  ⟨symbol, .text (String.ofList text), position, 0⟩

/-- The tokens below a token. -/
def Token.children (token : Token) : List Token :=
  match token.payload with
  | .reduction _ children => children
  | _ => []

end GoldTables

import GoldTables.Grammar.Text
import GoldTables.Json.Printer
import GoldTables.Tree.Walk

/-!
# Showing trees

A tree is shown as lines of text, one for each token, two blanks deeper than
the token above it; as JSON for readers who know the grammar, with names for
symbols and productions; or as JSON with every field of every token.
-/

namespace GoldTables

/-! ## Lines of text -/

/-- A token in words: the symbol and its text or value, or the production. -/
def Tables.tokenLabel (tables : Tables) (token : Token) : String :=
  match token.payload with
  | .text text => tables.symbolLabel token.symbol ++ " " ++ Text.quoted text
  | .reduction index _ => ((tables.production? index).map tables.productionText).getD ""
  | .value value => tables.symbolLabel token.symbol ++ " = " ++ value.compact

/-- The line of a token at a depth. -/
def Tables.tokenLine (tables : Tables) (depth : Nat) (token : Token) : String :=
  String.ofList (List.replicate (2 * depth) ' ') ++ tables.tokenLabel token ++ "\n"

/-- A tree as lines of text (`render_tree`). -/
def Tables.renderTree (tables : Tables) (root : Token) : String :=
  String.join (root.walk.map fun (depth, token) => tables.tokenLine depth token)

/-! ## JSON with names -/

/-- The name of a symbol, empty if there is no such symbol. -/
def Tables.symbolName (tables : Tables) (symbol : UInt16) : String :=
  ((tables.symbol? symbol).map Symbol.name).getD ""

mutual

/-- A tree as JSON with names, the members of each object in alphabetic order (`tree_to_json`). -/
def Tables.treeJson (tables : Tables) (token : Token) : Json :=
  match token with
  | ⟨symbol, .text text, position, _⟩ =>
    .obj [("column", .int position.column), ("line", .int position.line),
      ("symbol", .str (tables.symbolName symbol)), ("text", .str text)]
  | ⟨symbol, .reduction index children, _, _⟩ =>
    .obj [("children", .arr (tables.treeJsons children)),
      ("production", ((tables.production? index).map fun production =>
        Json.str (tables.productionText production)).getD .null),
      ("symbol", .str (tables.symbolName symbol))]
  | ⟨symbol, .value value, _, _⟩ =>
    .obj [("symbol", .str (tables.symbolName symbol)), ("value", value)]

/-- Trees as JSON with names. -/
def Tables.treeJsons (tables : Tables) : List Token → List Json
  | [] => []
  | token :: tokens => tables.treeJson token :: tables.treeJsons tokens

end

/-! ## JSON with all fields -/

mutual

/-- A token with all its fields. -/
def Token.toJson (token : Token) : Json :=
  match token with
  | ⟨symbol, payload, position, state⟩ =>
    .obj [("symbol", .ofUInt16 symbol), ("data", payload.toJson),
      ("position", .obj [("line", .int position.line), ("column", .int position.column)]),
      ("state", .ofUInt16 state)]

/-- What a token carries, under a name. -/
def Payload.toJson (payload : Payload) : Json :=
  match payload with
  | .text text => .obj [("Text", .str text)]
  | .reduction production children =>
    .obj [("Reduction",
      .obj [("production", .ofUInt16 production), ("children", .arr (Token.toJsons children))])]
  | .value value => .obj [("Value", value)]

/-- Tokens with all their fields. -/
def Token.toJsons : List Token → List Json
  | [] => []
  | token :: tokens => token.toJson :: Token.toJsons tokens

end

end GoldTables

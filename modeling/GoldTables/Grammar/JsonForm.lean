import GoldTables.Grammar.Basic
import GoldTables.Json.Printer

/-!
# Grammars as JSON

The JSON form of tables: rows are objects, and codes are written by name. What
`Tables.link` computes from the other tables is left out, apart from the
indices of rows and the groups of symbols.
-/

namespace GoldTables

/-- The JSON form of a symbol. -/
def Symbol.toJson (symbol : Symbol) : Json :=
  .obj [("index", .ofUInt16 symbol.index), ("name", .str symbol.name),
    ("kind", .str symbol.kind.name), ("group", .ofUInt16? symbol.group)]

/-- The JSON form of a production. -/
def Production.toJson (production : Production) : Json :=
  .obj [("index", .ofUInt16 production.index), ("head", .ofUInt16 production.head),
    ("body", .arr (production.body.map .ofUInt16))]

/-- The JSON form of a range of characters. -/
def CharacterRange.toJson (range : CharacterRange) : Json :=
  .obj [("start", .ofUInt16 range.start), ("end", .ofUInt16 range.last)]

/-- The JSON form of a character set. -/
def CharacterSet.toJson (set : CharacterSet) : Json :=
  .obj [("codepage", .ofUInt16 set.codepage), ("ranges", .arr (set.ranges.map (·.toJson)))]

/-- The JSON form of an edge of the automaton. -/
def DfaEdge.toJson (edge : DfaEdge) : Json :=
  .obj [("set", .ofUInt16 edge.set), ("target", .ofUInt16 edge.target)]

/-- The JSON form of a state of the automaton. -/
def DfaState.toJson (state : DfaState) : Json :=
  .obj [("accept", .ofUInt16? state.accept), ("edges", .arr (state.edges.map (·.toJson)))]

/-- The JSON form of an action: its name, or an object with its target under its name. -/
def Action.toJson : Action → Json
  | .shift state => .obj [("Shift", .ofUInt16 state)]
  | .reduce production => .obj [("Reduce", .ofUInt16 production)]
  | .goto state => .obj [("Goto", .ofUInt16 state)]
  | .accept => .str "Accept"
  | .error => .str "Error"

/-- The JSON form of an action and its symbol. -/
def LrAction.toJson (row : LrAction) : Json :=
  .obj [("symbol", .ofUInt16 row.symbol), ("action", row.action.toJson)]

/-- The JSON form of a parser state. -/
def LrState.toJson (state : LrState) : Json :=
  .obj [("actions", .arr (state.actions.toList.map (·.toJson)))]

/-- The JSON form of a group. -/
def Group.toJson (group : Group) : Json :=
  .obj [("index", .ofUInt16 group.index), ("name", .str group.name),
    ("container", .ofUInt16 group.container), ("start", .ofUInt16 group.start),
    ("end", .ofUInt16 group.finish), ("advance", .str group.advance.name),
    ("ending", .str group.ending.name), ("nesting", .arr (group.nesting.map .ofUInt16))]

/-- The JSON form of the properties. -/
def Properties.toJson (properties : Properties) : Json :=
  .obj [("values", .arr (properties.values.toList.map .str))]

/-- The JSON form of tables. -/
def Tables.toJson (tables : Tables) : Json :=
  .obj [("header", .str tables.header), ("properties", tables.properties.toJson),
    ("symbols", .arr (tables.symbols.toList.map (·.toJson))),
    ("charsets", .arr (tables.characterSets.toList.map (·.toJson))),
    ("productions", .arr (tables.productions.toList.map (·.toJson))),
    ("dfa_states", .arr (tables.dfaStates.toList.map (·.toJson))),
    ("lr_states", .arr (tables.lrStates.toList.map (·.toJson))),
    ("groups", .arr (tables.groups.toList.map (·.toJson))),
    ("dfa_initial", .ofUInt16 tables.dfaInitial), ("lr_initial", .ofUInt16 tables.lrInitial)]

/-- The JSON document of a grammar (`save_grammar_json`). -/
def Grammar.toDocument (grammar : Grammar) : String := grammar.toTables.toJson.pretty

end GoldTables

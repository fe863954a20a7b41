import GoldTables.Grammar.Action
import GoldTables.Grammar.Automaton
import GoldTables.Grammar.Group
import GoldTables.Grammar.Properties
import GoldTables.Grammar.Symbol

/-!
# Grammar tables

The rows of the tables refer to each other by 16-bit indices. `Tables` is what
a file holds; `Grammar` adds what `Tables.link` computes after it has checked
every index.
-/

namespace GoldTables

/-- The tables of a grammar as a file holds them. -/
structure Tables where
  header : String
  properties : Properties
  symbols : Array Symbol
  characterSets : Array CharacterSet
  productions : Array Production
  dfaStates : Array DfaState
  lrStates : Array LrState
  groups : Array Group
  /-- The state in which the lexer's automaton starts. -/
  dfaInitial : UInt16
  /-- The state in which the parser starts. -/
  lrInitial : UInt16

/-- Tables with the symbols that every lexer needs and an index of the symbol names. -/
structure Grammar extends Tables where
  /-- The first symbol of kind `endOfInput`. -/
  endSymbol : UInt16
  /-- The first symbol of kind `error`. -/
  errorSymbol : UInt16
  /-- The first symbol of each name. -/
  byName : Std.TreeMap String UInt16

namespace Tables

/-- The symbol of an index. -/
def symbol? (tables : Tables) (index : UInt16) : Option Symbol := tables.symbols[index.toNat]?

/-- The production of an index. -/
def production? (tables : Tables) (index : UInt16) : Option Production :=
  tables.productions[index.toNat]?

/-- The group of an index. -/
def group? (tables : Tables) (index : UInt16) : Option Group := tables.groups[index.toNat]?

/-- The parser state of an index. -/
def lrState? (tables : Tables) (index : UInt16) : Option LrState := tables.lrStates[index.toNat]?

/-- The kind of a symbol. -/
def kind? (tables : Tables) (symbol : UInt16) : Option SymbolKind :=
  (tables.symbol? symbol).map Symbol.kind

/-- The action in effect in a state on a symbol. -/
def action? (tables : Tables) (state symbol : UInt16) : Option Action :=
  (tables.lrState? state).bind fun row => row.action? symbol

/-- The first symbol of a kind (`first_of_kind`). -/
def firstOfKind? (tables : Tables) (kind : SymbolKind) : Option Symbol :=
  tables.symbols.find? fun symbol => symbol.kind = kind

/-- A chain production only renames one nonterminal (`is_chain`). -/
def isChain (tables : Tables) (production : Production) : Bool :=
  match production.body with
  | [only] => tables.kind? only = some .nonterminal
  | _ => false

end Tables

/-- The first symbol of a name (`symbol_by_name`). -/
def Grammar.symbolByName? (grammar : Grammar) (name : String) : Option Symbol :=
  grammar.byName[name]?.bind grammar.symbol?

end GoldTables

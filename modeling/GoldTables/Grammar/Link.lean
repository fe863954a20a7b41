import GoldTables.LoadError

/-!
# From tables to a grammar

`Tables.link` turns tables into a grammar. It numbers the rows by their
places, makes the index of every parser state anew, checks every index, tells
each symbol its group, and looks up the symbols for the end of the input and
for unmatched text. A grammar is handed out only if all indices are in range.
-/

namespace GoldTables

namespace Tables

/-! ## Numbering -/

/-- The tables with every row's own index set to its place, no links to groups, and the index of
    every parser state made anew: the first part of `link`. -/
def renumber (tables : Tables) : Tables :=
  { tables with
    symbols := tables.symbols.mapIdx fun i symbol =>
      { symbol with index := UInt16.ofNat i, group := none }
    productions := tables.productions.mapIdx fun i production =>
      { production with index := UInt16.ofNat i }
    lrStates := tables.lrStates.map LrState.reindex
    groups := tables.groups.mapIdx fun i group => { group with index := UInt16.ofNat i } }

/-! ## Checks -/

/-- Checks that an index lies inside a table of a size (`check` inside `validate`). -/
def checkIndex (owner : Owner) (table : Table) (index : UInt16) (size : Nat) :
    Except LoadError Unit :=
  if index.toNat < size then .ok () else .error (.badReference owner table index)

/-- Checks the head and the body of a production. -/
def checkProduction (tables : Tables) (production : Production) : Except LoadError Unit := do
  let owner := Owner.production production.index
  checkIndex owner .symbol production.head tables.symbols.size
  if tables.kind? production.head ≠ some .nonterminal then
    throw (.nonterminalHead production.index production.head)
  production.body.forM fun symbol => checkIndex owner .symbol symbol tables.symbols.size

/-- Checks the accepted symbol and the edges of a state of the automaton. -/
def checkDfaState (tables : Tables) (index : Nat) (state : DfaState) : Except LoadError Unit := do
  let owner := Owner.dfaState index
  if let some symbol := state.accept then
    checkIndex owner .symbol symbol tables.symbols.size
  state.edges.forM fun edge => do
    checkIndex owner .characterSet edge.set tables.characterSets.size
    checkIndex owner .dfaState edge.target tables.dfaStates.size

/-- Checks what an action of a parser state refers to. -/
def checkAction (tables : Tables) (owner : Owner) : Action → Except LoadError Unit
  | .shift state | .goto state => checkIndex owner .lrState state tables.lrStates.size
  | .reduce production => checkIndex owner .production production tables.productions.size
  | .accept | .error => .ok ()

/-- Checks the actions of a parser state. -/
def checkLrState (tables : Tables) (index : Nat) (state : LrState) : Except LoadError Unit :=
  state.actions.toList.forM fun row => do
    checkIndex (.lrState index) .symbol row.symbol tables.symbols.size
    tables.checkAction (.lrState index) row.action

/-- Checks the symbols of a group and the groups nested in it. -/
def checkGroup (tables : Tables) (group : Group) : Except LoadError Unit := do
  let owner := Owner.group group.index
  [group.container, group.start, group.finish].forM fun symbol =>
    checkIndex owner .symbol symbol tables.symbols.size
  group.nesting.forM fun nested => checkIndex owner .group nested tables.groups.size

/-- Checks every index in the tables (`validate`). -/
def check (tables : Tables) : Except LoadError Unit := do
  tables.productions.toList.forM tables.checkProduction
  tables.dfaStates.toList.zipIdx.forM fun row => tables.checkDfaState row.2 row.1
  tables.lrStates.toList.zipIdx.forM fun row => tables.checkLrState row.2 row.1
  tables.groups.toList.forM tables.checkGroup
  checkIndex .initialStates .dfaState tables.dfaInitial tables.dfaStates.size
  checkIndex .initialStates .lrState tables.lrInitial tables.lrStates.size

/-! ## Links -/

/-- Tells a symbol its group. -/
def linkSymbol (symbols : Array Symbol) (index group : UInt16) : Array Symbol :=
  symbols.modify index.toNat fun symbol => { symbol with group := some group }

/-- Tells the three symbols of a group that they belong to it. -/
def linkGroup (symbols : Array Symbol) (group : Group) : Array Symbol :=
  [group.container, group.start, group.finish].foldl
    (fun symbols index => linkSymbol symbols index group.index) symbols

/-- Tells every symbol its group, as `link` does behind its checks; of several groups the last one
    stays. -/
def linkGroups (tables : Tables) : Tables :=
  { tables with symbols := tables.groups.foldl linkGroup tables.symbols }

/-- The first symbol of each name. -/
def nameIndex (tables : Tables) : Std.TreeMap String UInt16 :=
  tables.symbols.foldl (fun names symbol => names.insertIfNew symbol.name symbol.index) ∅

/-- The index of the first symbol of a kind that a grammar needs. -/
def neededSymbol (tables : Tables) (kind : SymbolKind) : Except LoadError UInt16 :=
  match tables.firstOfKind? kind with
  | some symbol => .ok symbol.index
  | none => .error (.missingSymbol kind)

/-- The grammar of tables whose indices are all in range (`link`). -/
def link (tables : Tables) : Except LoadError Grammar := do
  let numbered := tables.renumber
  numbered.check
  let linked := numbered.linkGroups
  let endSymbol ← linked.neededSymbol .endOfInput
  let errorSymbol ← linked.neededSymbol .error
  return { linked with endSymbol, errorSymbol, byName := linked.nameIndex }

end Tables

end GoldTables

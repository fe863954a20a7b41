import GoldTables.Grammar.Basic
import GoldTables.Record.Writer

/-!
# Grammars as table files

The records of a grammar: the properties, the sizes of the tables, the
initial states, and then the rows of each table in order. A size above 65535
is written modulo 65536.
-/

namespace GoldTables

/-- The entry of a number that counts something (`count` inside `write_grammar_egt`). -/
def countEntry (n : Nat) : Entry := .uint16 (UInt16.ofNat n)

/-- A record of a kind (`record`). -/
def kindRecord (kind : RecordKind) (entries : List Entry) : List Entry :=
  .byte kind.code :: entries

/-! ## Rows -/

/-- The records of the properties. -/
def Properties.toRecords (properties : Properties) : List (List Entry) :=
  properties.toList.zipIdx.map fun ((name, value), index) =>
    kindRecord .property [countEntry index, .string name, .string value]

/-- The record of a symbol. -/
def Symbol.toRecord (symbol : Symbol) : List Entry :=
  kindRecord .symbol [.uint16 symbol.index, .string symbol.name, .uint16 symbol.kind.code]

/-- The record of a character set at a place in its table. -/
def CharacterSet.toRecord (set : CharacterSet) (index : Nat) : List Entry :=
  kindRecord .characterSet <|
    [countEntry index, .uint16 set.codepage, countEntry set.ranges.length, .empty] ++
      set.ranges.flatMap fun range => [.uint16 range.start, .uint16 range.last]

/-- The record of a production. -/
def Production.toRecord (production : Production) : List Entry :=
  kindRecord .production <|
    [.uint16 production.index, .uint16 production.head, .empty] ++ production.body.map .uint16

/-- The record of a state of the automaton at a place in its table. -/
def DfaState.toRecord (state : DfaState) (index : Nat) : List Entry :=
  kindRecord .dfaState <|
    [countEntry index, .boolean state.accept.isSome, .uint16 (state.accept.getD 0), .empty] ++
      state.edges.flatMap fun edge => [.uint16 edge.set, .uint16 edge.target, .empty]

/-- The entries of an action. -/
def LrAction.toEntries (row : LrAction) : List Entry :=
  [.uint16 row.symbol, .uint16 row.action.toTable.1, .uint16 row.action.toTable.2, .empty]

/-- The record of a parser state at a place in its table. -/
def LrState.toRecord (state : LrState) (index : Nat) : List Entry :=
  kindRecord .lrState <|
    [countEntry index, .empty] ++ state.actions.toList.flatMap LrAction.toEntries

/-- The record of a group. -/
def Group.toRecord (group : Group) : List Entry :=
  kindRecord .group <|
    [.uint16 group.index, .string group.name, .uint16 group.container, .uint16 group.start,
      .uint16 group.finish, .uint16 group.advance.code, .uint16 group.ending.code, .empty,
      countEntry group.nesting.length] ++
      group.nesting.map .uint16

/-! ## Tables -/

namespace Tables

/-- The record of the table sizes. -/
def countsRecord (tables : Tables) : List Entry :=
  kindRecord .tableCounts
    [countEntry tables.symbols.size, countEntry tables.characterSets.size,
      countEntry tables.productions.size, countEntry tables.dfaStates.size,
      countEntry tables.lrStates.size, countEntry tables.groups.size]

/-- The record of the initial states. -/
def initialRecord (tables : Tables) : List Entry :=
  kindRecord .initialStates [.uint16 tables.dfaInitial, .uint16 tables.lrInitial]

/-- All records of tables, in the order in which they are written. -/
def toRecords (tables : Tables) : List (List Entry) :=
  tables.properties.toRecords ++
    [tables.countsRecord, tables.initialRecord] ++
    tables.characterSets.toList.zipIdx.map (fun (set, index) => set.toRecord index) ++
    tables.symbols.toList.map Symbol.toRecord ++
    tables.groups.toList.map Group.toRecord ++
    tables.productions.toList.map Production.toRecord ++
    tables.dfaStates.toList.zipIdx.map (fun (state, index) => state.toRecord index) ++
    tables.lrStates.toList.zipIdx.map (fun (state, index) => state.toRecord index)

end Tables

/-- The table file of a grammar (`write_grammar_egt`). -/
def Grammar.toBytes (grammar : Grammar) : Except WriteFault (List UInt8) :=
  fileBytes formatHeader grammar.toTables.toRecords

end GoldTables

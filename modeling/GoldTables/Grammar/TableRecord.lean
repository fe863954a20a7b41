import GoldTables.Grammar.Basic
import GoldTables.Record.Reader

/-!
# Records of tables

Each record of a table file describes one thing: a property, the sizes of the
tables, the initial states, or one row. Its first entry says which, and the
others follow in a fixed order; entries that are reserved may hold anything.
`tableRecords` reads a file up to its end or its first fault.
-/

namespace GoldTables

open RecordReader

/-! ## What records say -/

/-- The sizes of the tables. -/
structure TableCounts where
  symbols : UInt16
  characterSets : UInt16
  productions : UInt16
  dfaStates : UInt16
  lrStates : UInt16
  groups : UInt16
  deriving DecidableEq

/-- A record, understood. -/
inductive TableRecord where
  | property (index : UInt16) (value : String)
  | tableCounts (counts : TableCounts)
  | initialStates (dfa lr : UInt16)
  | symbol (index : UInt16) (row : Symbol)
  /-- A character set, and the number of ranges that it declares. -/
  | characterSet (index : UInt16) (declared : UInt16) (row : CharacterSet)
  | production (index : UInt16) (row : Production)
  | dfaState (index : UInt16) (row : DfaState)
  | lrState (index : UInt16) (row : LrState)
  | group (index : UInt16) (row : Group)

namespace TableRecord

/-! ## Reading one record -/

/-- Reads a number that must be a code (`enum_value`). -/
def readCode {α : Type} (field : CodeField) (ofCode? : UInt16 → Option α) : ReadM α := do
  let value ← readNumber
  match ofCode? value with
  | some meaning => return meaning
  | none => throw (.invalidValue field value)

/-- Reads a number of items, put behind the reversed list `done`. -/
def readTimes {α : Type} (item : ReadM α) : Nat → List α → ReadM (List α)
  | 0, done => return done.reverse
  | n + 1, done => do
    let value ← item
    readTimes item n (value :: done)

/-- Reads items until the record is complete, at most a number of them. -/
def readUntilComplete {α : Type} (item : ReadM α) : Nat → List α → ReadM (List α)
  | 0, done => return done.reverse
  | n + 1, done => do
    if (← get).recordComplete then return done.reverse
    let value ← item
    readUntilComplete item n (value :: done)

/-- Reads items up to the end of the record. Every item takes an entry, so there are no more
    items than entries. -/
def readItems {α : Type} (item : ReadM α) : ReadM (List α) := do
  readUntilComplete item (← get).entryCount.toNat []

/-- A property: index, name, value. The name is not kept. -/
def readProperty : ReadM TableRecord := do
  let index ← readNumber
  let _ ← readText
  return .property index (← readText)

/-- The sizes of the six tables. -/
def readTableCounts : ReadM TableRecord := do
  return .tableCounts
    ⟨← readNumber, ← readNumber, ← readNumber, ← readNumber, ← readNumber, ← readNumber⟩

/-- The states in which the lexer's automaton and the parser start. -/
def readInitialStates : ReadM TableRecord := do
  return .initialStates (← readNumber) (← readNumber)

/-- A symbol: index, name, kind. -/
def readSymbol : ReadM TableRecord := do
  let index ← readNumber
  let name ← readText
  let kind ← readCode .symbolKind SymbolKind.ofCode?
  return .symbol index { index, name, kind, group := none }

/-- A group: index, name, container, start, end, advance mode, ending mode, a reserved entry,
    and the nested groups behind their number. -/
def readGroup : ReadM TableRecord := do
  let index ← readNumber
  let name ← readText
  let container ← readNumber
  let start ← readNumber
  let finish ← readNumber
  let advance ← readCode .advanceMode AdvanceMode.ofCode?
  let ending ← readCode .endingMode EndingMode.ofCode?
  let _ ← readEntry
  let count ← readNumber
  let nesting ← readTimes readNumber count.toNat []
  return .group index { index, name, container, start, finish, advance, ending, nesting }

/-- A range of characters: first, last. -/
def readRange : ReadM CharacterRange := do
  return ⟨← readNumber, ← readNumber⟩

/-- A character set: index, codepage, number of ranges, a reserved entry, the ranges. -/
def readCharacterSet : ReadM TableRecord := do
  let index ← readNumber
  let codepage ← readNumber
  let declared ← readNumber
  let _ ← readEntry
  let ranges ← readItems readRange
  return .characterSet index declared { codepage, ranges }

/-- A production: index, head, a reserved entry, the symbols of the body. -/
def readProduction : ReadM TableRecord := do
  let index ← readNumber
  let head ← readNumber
  let _ ← readEntry
  let body ← readItems readNumber
  return .production index { index, head, body }

/-- An edge of the automaton: character set, target state, a reserved entry. -/
def readEdge : ReadM DfaEdge := do
  let set ← readNumber
  let target ← readNumber
  let _ ← readEntry
  return { set, target }

/-- A state of the automaton: index, whether it accepts, the accepted symbol, a reserved entry,
    the edges. -/
def readDfaState : ReadM TableRecord := do
  let index ← readNumber
  let accepts ← readBool
  let symbol ← readNumber
  let _ ← readEntry
  let edges ← readItems readEdge
  return .dfaState index { accept := if accepts then some symbol else none, edges }

/-- An action of a parser state: symbol, kind of action, target, a reserved entry. -/
def readAction : ReadM LrAction := do
  let symbol ← readNumber
  let kind ← readNumber
  let target ← readNumber
  let _ ← readEntry
  match Action.ofTable? kind target with
  | some action => return { symbol, action }
  | none => throw (.invalidValue .lrAction kind)

/-- A parser state: index, a reserved entry, the actions. -/
def readLrState : ReadM TableRecord := do
  let index ← readNumber
  let _ ← readEntry
  return .lrState index (LrState.ofActions (← readItems readAction))

/-- Reads a record of a kind, as `load` does, and `read_indexed` for the rows of tables. A row is
    read only if the sizes of the tables are known. -/
def readBody (counted : Bool) (kind : RecordKind) : ReadM TableRecord :=
  match kind with
  | .property => readProperty
  | .tableCounts => readTableCounts
  | .initialStates => readInitialStates
  | _ =>
    if !counted then throw (.tableCountsMissing (some kind))
    else
      match kind with
      | .symbol => readSymbol
      | .group => readGroup
      | .characterSet => readCharacterSet
      | .production => readProduction
      | .dfaState => readDfaState
      | _ => readLrState

/-- Reads the next record, if there is one: a turn of the loop of `load`. -/
def readNext (counted : Bool) : ReadM (Option TableRecord) := do
  if ← nextRecord then
    let offset := (← get).offset
    let code ← readByte
    match RecordKind.ofCode? code with
    | some kind => return some (← readBody counted kind)
    | none => throw (.unknownRecord code offset)
  else return none

/-- Whether the record holds the sizes of the tables. -/
def isTableCounts : TableRecord → Bool
  | .tableCounts _ => true
  | _ => false

end TableRecord

/-! ## Reading a file -/

/-- Reads at most a number of records, put behind the reversed list `done`, up to the first
    fault. -/
def collectRecords : Nat → Bool → List TableRecord → RecordReader →
    List TableRecord × Option LoadError
  | 0, _, done, _ => (done.reverse, none)
  | n + 1, counted, done, reader =>
    match TableRecord.readNext counted reader with
    | .ok none _ => (done.reverse, none)
    | .ok (some record) reader =>
      collectRecords n (counted || record.isTableCounts) (record :: done) reader
    | .error fault _ => (done.reverse, some fault)

/-- The records of a file up to its end or its first fault, and the fault. Every record takes a
    byte, so there are no more records than bytes. -/
def tableRecords (reader : RecordReader) : List TableRecord × Option LoadError :=
  collectRecords (reader.rest.length + 1) false [] reader

end GoldTables

import GoldTables.Grammar.Basic
import GoldTables.Record.Entry

/-!
# Why tables cannot be read

Reading tables is all or nothing: the first fault ends it, and no grammar is
produced. Each fault says where it is and what is wrong with it.
-/

namespace GoldTables

/-- Why a source of bytes gave fewer than were asked for. -/
inductive SourceFault where
  /-- The bytes end too early. -/
  | truncated
  /-- There is no such file. -/
  | missing
  deriving DecidableEq

/-- The fault in words. -/
def SourceFault.message : SourceFault → String
  | .truncated => "failed to fill whole buffer"
  | .missing => "No such file or directory (os error 2)"

/-- A table of a grammar. -/
inductive Table where
  | symbol
  | characterSet
  | production
  | dfaState
  | lrState
  | group
  deriving DecidableEq

/-- The table's name in messages. -/
def Table.name : Table → String
  | .symbol => "symbol"
  | .characterSet => "character set"
  | .production => "production"
  | .dfaState => "DFA state"
  | .lrState => "LALR state"
  | .group => "group"

/-- A row that refers to other rows. -/
inductive Owner where
  | production (index : UInt16)
  | dfaState (index : Nat)
  | lrState (index : Nat)
  | group (index : UInt16)
  | initialStates
  deriving DecidableEq

/-- The row in words. -/
def Owner.text : Owner → String
  | .production index => s!"production {index}"
  | .dfaState index => s!"DFA state {index}"
  | .lrState index => s!"LALR state {index}"
  | .group index => s!"group {index}"
  | .initialStates => "initial states"

/-- A number that is a code. -/
inductive CodeField where
  | symbolKind
  | advanceMode
  | endingMode
  | lrAction
  deriving DecidableEq

/-- The code's name in messages. -/
def CodeField.name : CodeField → String
  | .symbolKind => "symbol kind"
  | .advanceMode => "group advance mode"
  | .endingMode => "group ending mode"
  | .lrAction => "LALR action"

/-- A fault of a table file. -/
inductive LoadError where
  /-- The source failed at an offset. -/
  | io (offset : Nat) (fault : SourceFault)
  /-- A record starts with another byte than `recordTag`. -/
  | unexpectedRecordTag (tag : UInt8) (offset : Nat)
  /-- An entry starts with a byte that announces no type. -/
  | unknownEntryType (tag : UInt8) (offset : Nat)
  /-- An entry has another type than the one asked for. -/
  | typeMismatch (expected found : EntryType) (offset : Nat)
  /-- A record starts with a byte that is no kind of record. -/
  | unknownRecord (code : UInt8) (offset : Nat)
  /-- A record of a table comes before the sizes of the tables; `none` if the file ends
      without them. -/
  | tableCountsMissing (record : Option RecordKind)
  /-- A record addresses a row behind the end of its table. -/
  | indexOutOfRange (table : Table) (index : UInt16) (size : Nat)
  /-- A row was never described. -/
  | missingEntry (table : Table) (index : Nat)
  /-- A row refers to a row that does not exist. -/
  | badReference (owner : Owner) (table : Table) (index : UInt16)
  /-- A number is not a code. -/
  | invalidValue (field : CodeField) (value : UInt16)
  /-- The head of a production is not a nonterminal. -/
  | nonterminalHead (production head : UInt16)
  /-- No symbol has a kind that is needed. -/
  | missingSymbol (kind : SymbolKind)
  /-- A JSON text is malformed or does not describe tables. -/
  | json
  deriving DecidableEq

namespace LoadError

/-- A byte as two upper-case hexadecimal digits. -/
def hexByteUpper (b : UInt8) : String :=
  String.ofList ([b.toNat / 16, b.toNat % 16].map fun digit => (Nat.digitChar digit).toUpper)

/-- The fault in words. -/
def message : LoadError → String
  | io offset fault => s!"i/o error at byte {offset}: {fault.message}"
  | unexpectedRecordTag tag offset =>
    s!"expected a content record ('M') at byte {offset}, found 0x{hexByteUpper tag}"
  | unknownEntryType tag offset => s!"unknown entry type 0x{hexByteUpper tag} at byte {offset}"
  | typeMismatch expected found offset =>
    s!"type mismatch at byte {offset}: expected {expected.name}, read {found.name}"
  | unknownRecord code offset =>
    s!"a record of type '{Char.ofNat code.toNat}' was read at byte {offset}; " ++
      "this is not a valid code"
  | tableCountsMissing (some record) => s!"'{record.name}' record read before the table counts"
  | tableCountsMissing none => "'end of file' record read before the table counts"
  | indexOutOfRange table index size =>
    s!"{table.name} index {index} is out of range (table size {size})"
  | missingEntry table index => s!"{table.name} slot {index} was never filled"
  | badReference owner table index =>
    s!"{owner.text} refers to {table.name} {index}, which does not exist"
  | invalidValue field value => s!"invalid {field.name} value {value}"
  | nonterminalHead production head =>
    s!"production {production} has head symbol {head}, which is not a nonterminal"
  | missingSymbol kind => s!"grammar has no {kind.name} symbol"
  | json => "grammar JSON: malformed document"

end LoadError

end GoldTables

import GoldTables.Grammar.TableRecord

/-!
# Drafts of tables

A draft holds what is known of a grammar while its records are read. The
record of table sizes opens empty rows, and every later record fills the row
it names, so that the rows of a table may come in any order and a row
described twice keeps its last description. Once all rows are filled, the
draft becomes tables.
-/

namespace GoldTables

/-! ## Rows to be filled -/

/-- Tables whose rows are still to be filled. -/
structure Slots where
  symbols : Array (Option Symbol)
  characterSets : Array (Option CharacterSet)
  productions : Array (Option Production)
  dfaStates : Array (Option DfaState)
  lrStates : Array (Option LrState)
  groups : Array (Option Group)

/-- Tables of the given sizes without a filled row (`Slots.with_len`). -/
def Slots.ofCounts (counts : TableCounts) : Slots where
  symbols := Array.replicate counts.symbols.toNat none
  characterSets := Array.replicate counts.characterSets.toNat none
  productions := Array.replicate counts.productions.toNat none
  dfaStates := Array.replicate counts.dfaStates.toNat none
  lrStates := Array.replicate counts.lrStates.toNat none
  groups := Array.replicate counts.groups.toNat none

/-- Fills a row (`Slots.fill`). -/
def fillSlot {α : Type} (table : Table) (slots : Array (Option α)) (index : UInt16) (row : α) :
    Except LoadError (Array (Option α)) :=
  if index.toNat < slots.size then .ok (slots.setIfInBounds index.toNat (some row))
  else .error (.indexOutOfRange table index slots.size)

/-- The rows of a table that are all filled (`Slots.finish`). -/
def filledRows {α : Type} (table : Table) (slots : Array (Option α)) :
    Except LoadError (Array α) :=
  match slots.findIdx? Option.isNone with
  | some index => .error (.missingEntry table index)
  | none => .ok (slots.filterMap id)

/-! ## Drafts -/

/-- What `load` knows of a grammar while it reads the records. -/
structure Draft where
  properties : Properties
  /-- The tables, once their sizes are known. -/
  slots : Option Slots
  dfaInitial : UInt16
  lrInitial : UInt16

namespace Draft

/-- The draft before the first record. -/
def empty : Draft := ⟨Properties.empty, none, 0, 0⟩

/-- Changes the tables by a record of some kind. -/
def fill (draft : Draft) (kind : RecordKind) (change : Slots → Except LoadError Slots) :
    Except LoadError Draft :=
  match draft.slots with
  | none => .error (.tableCountsMissing (some kind))
  | some slots => do return { draft with slots := some (← change slots) }

/-- Enters a record: what `load` does with one of the first three kinds, and `read_indexed` with
    one that describes a row. -/
def add (draft : Draft) : TableRecord → Except LoadError Draft
  | .property index value => .ok { draft with properties := draft.properties.set index value }
  | .tableCounts counts => .ok { draft with slots := some (Slots.ofCounts counts) }
  | .initialStates dfa lr => .ok { draft with dfaInitial := dfa, lrInitial := lr }
  | .symbol index row => draft.fill .symbol fun slots => do
    return { slots with symbols := ← fillSlot .symbol slots.symbols index row }
  | .characterSet index _ row => draft.fill .characterSet fun slots => do
    return { slots with characterSets := ← fillSlot .characterSet slots.characterSets index row }
  | .production index row => draft.fill .production fun slots => do
    return { slots with productions := ← fillSlot .production slots.productions index row }
  | .dfaState index row => draft.fill .dfaState fun slots => do
    return { slots with dfaStates := ← fillSlot .dfaState slots.dfaStates index row }
  | .lrState index row => draft.fill .lrState fun slots => do
    return { slots with lrStates := ← fillSlot .lrState slots.lrStates index row }
  | .group index row => draft.fill .group fun slots => do
    return { slots with groups := ← fillSlot .group slots.groups index row }

/-- The tables of a draft whose rows are all filled, as `load` takes them behind the last record. -/
def finish (draft : Draft) (header : String) : Except LoadError Tables :=
  match draft.slots with
  | none => .error (.tableCountsMissing none)
  | some slots => do
    return {
      header
      properties := draft.properties
      symbols := ← filledRows .symbol slots.symbols
      characterSets := ← filledRows .characterSet slots.characterSets
      productions := ← filledRows .production slots.productions
      dfaStates := ← filledRows .dfaState slots.dfaStates
      lrStates := ← filledRows .lrState slots.lrStates
      groups := ← filledRows .group slots.groups
      dfaInitial := draft.dfaInitial
      lrInitial := draft.lrInitial }

end Draft

end GoldTables

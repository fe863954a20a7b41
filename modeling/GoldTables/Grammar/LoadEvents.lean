import GoldTables.Grammar.Load
import GoldTables.Log
import GoldTables.Text.Quoted

/-!
# What is worth noticing in a table file

An unusual header, a row that is described twice, a wrong number of ranges
and an unknown property do not keep a table file from being loaded, but they
are told to whoever listens.
-/

namespace GoldTables

/-- Setting a property that does not exist is worth noticing. -/
def Properties.setEvents (index : UInt16) (value : String) : List Event :=
  if index.toNat < 8 then []
  else [⟨.debug, s!"ignoring grammar property #{index} = {Text.quoted value}"⟩]

/-- Filling a row a second time is worth noticing. -/
def refillEvents {α : Type} (table : Table) (slots : Array (Option α)) (index : UInt16) :
    List Event :=
  match slots[index.toNat]? with
  | some (some _) => [⟨.warn, s!"{table.name} {index} defined twice; keeping the later record"⟩]
  | _ => []

/-- The sizes of the tables in words. -/
def TableCounts.text (counts : TableCounts) : String :=
  s!"table counts: {counts.symbols} symbols, {counts.characterSets} sets, " ++
    s!"{counts.productions} productions, {counts.dfaStates} DFA states, " ++
    s!"{counts.lrStates} LALR states, {counts.groups} groups"

/-- What is worth noticing when a record is entered in a draft. -/
def Draft.addEvents (draft : Draft) (record : TableRecord) : List Event :=
  match record, draft.slots with
  | .property index value, _ => Properties.setEvents index value
  | .tableCounts counts, _ => [⟨.debug, counts.text⟩]
  | .symbol index _, some slots => refillEvents .symbol slots.symbols index
  | .characterSet index declared row, some slots =>
    (if row.ranges.length = declared.toNat then []
      else
        [⟨.warn, s!"character set {index} declares {declared} ranges but holds " ++
          toString row.ranges.length⟩]) ++
      refillEvents .characterSet slots.characterSets index
  | .production index _, some slots => refillEvents .production slots.productions index
  | .dfaState index _, some slots => refillEvents .dfaState slots.dfaStates index
  | .lrState index _, some slots => refillEvents .lrState slots.lrStates index
  | .group index _, some slots => refillEvents .group slots.groups index
  | _, _ => []

/-- What is worth noticing when records are entered one after the other, put behind the reversed
    list `done`. -/
def Draft.addAllEvents (draft : Draft) (done : List Event) : List TableRecord → List Event
  | [] => done.reverse
  | record :: records =>
    let done := (draft.addEvents record).reverse ++ done
    match draft.add record with
    | .ok draft => draft.addAllEvents done records
    | .error _ => done.reverse

/-- A loaded grammar in words. -/
def Grammar.summary (grammar : Grammar) (records : Nat) : String :=
  s!"loaded grammar {Text.quoted grammar.properties.name} from {records} records " ++
    s!"({grammar.symbols.size} symbols, {grammar.productions.size} productions, " ++
    s!"{grammar.dfaStates.size} DFA / {grammar.lrStates.size} LALR states)"

/-- What is worth noticing when a table file is loaded. -/
def Grammar.loadEvents (bytes : List UInt8) : List Event :=
  match RecordReader.open? bytes with
  | .error _ => []
  | .ok reader =>
    let (records, fault) := tableRecords reader
    let headerEvents : List Event :=
      if reader.header = formatHeader then []
      else
        [⟨.warn, s!"unexpected table header {Text.quoted reader.header}; expected " ++
          Text.quoted formatHeader⟩]
    let loaded := (Tables.ofRecords reader.header records fault).bind Tables.link
    headerEvents ++ Draft.empty.addAllEvents [] records ++
      match loaded with
      | .ok grammar => [⟨.debug, grammar.summary records.length⟩]
      | .error _ => []

end GoldTables

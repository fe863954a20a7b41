import GoldTables.Grammar.Draft
import GoldTables.Grammar.Link

/-!
# Loading table files

A table file is read in three stages: its bytes become records of tables, the
records fill a draft, and the tables of the draft are checked and linked. A
fault of the bytes counts only if all records before it could be entered.
-/

namespace GoldTables

/-- The tables described by a header and records, the last of which may be followed by a
    fault (`load`). -/
def Tables.ofRecords (header : String) (records : List TableRecord) (fault : Option LoadError) :
    Except LoadError Tables := do
  let draft ← records.foldlM Draft.add Draft.empty
  match fault with
  | some fault => throw fault
  | none => draft.finish header

/-- The grammar that a table file holds (`from_bytes`). -/
def Grammar.ofBytes (bytes : List UInt8) : Except LoadError Grammar := do
  let reader ← RecordReader.open? bytes
  let (records, fault) := tableRecords reader
  let tables ← Tables.ofRecords reader.header records fault
  tables.link

end GoldTables

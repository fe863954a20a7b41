import GoldTables.LoadError
import GoldTables.Record.Word
import GoldTables.Text.Utf16

/-!
# Reading records

A reader walks over the bytes of a table file: the header, then one record
after the other. Entries are read inside the current record only. Behind its
last entry every read yields an empty entry and leaves the bytes alone, and
the next record starts behind whatever was left unread.

A fault does not stop the reader: its state is kept, and reading may go on. A
read of one or two bytes that finds too few of them uses up what is left, and
leaves the offset where the read began.
-/

namespace GoldTables

/-- A reader and how far it has come. -/
structure RecordReader where
  header : String
  /-- The bytes that were not read yet. -/
  rest : List UInt8
  /-- The number of bytes read. -/
  offset : Nat
  /-- The number of entries in the current record. -/
  entryCount : UInt16
  /-- The number of entries of the current record that were read, or failed to be. -/
  entriesRead : UInt16

/-- A reading step: it moves the reader on, and ends in a value or a fault. -/
abbrev ReadM := EStateM LoadError RecordReader

namespace RecordReader

/-! ## Bytes, numbers and texts -/

/-- Reads a byte (`raw_byte`). -/
def rawByte : ReadM UInt8 := fun reader =>
  match reader.rest with
  | byte :: rest => .ok byte { reader with rest, offset := reader.offset + 1 }
  | [] => .error (.io reader.offset .truncated) reader

/-- Reads a number of two bytes (`raw_u16`). -/
def rawWord : ReadM UInt16 := fun reader =>
  match reader.rest with
  | low :: high :: rest => .ok (word low high) { reader with rest, offset := reader.offset + 2 }
  | _ => .error (.io reader.offset .truncated) { reader with rest := [] }

/-- Splits bytes behind the first number that is zero: the numbers before it, put behind the
    reversed list `units`, and the bytes behind it. `none` if no number is zero. -/
def splitUnits (units : List UInt16) : List UInt8 → Option (List UInt16 × List UInt8)
  | low :: high :: rest =>
    let unit := word low high
    if unit = 0 then some (units.reverse, rest) else splitUnits (unit :: units) rest
  | _ => none

/-- Reads a text: 16-bit units up to a zero (`raw_string`). -/
def rawText : ReadM String := fun reader =>
  match splitUnits [] reader.rest with
  | some (units, rest) =>
    .ok (Text.ofUtf16 units) { reader with rest, offset := reader.offset + 2 * (units.length + 1) }
  | none =>
    let offset := reader.offset + 2 * (reader.rest.length / 2)
    .error (.io offset .truncated) { reader with rest := [], offset }

/-- Starts reading a table file: reads its header (`EgtReader.open`). -/
def open? (bytes : List UInt8) : Except LoadError RecordReader :=
  match rawText ⟨"", bytes, 0, 0, 0⟩ with
  | .ok header reader => .ok { reader with header }
  | .error fault _ => .error fault

/-! ## Entries -/

/-- Whether every entry of the current record was read (`record_complete`). -/
def recordComplete (reader : RecordReader) : Bool := reader.entryCount ≤ reader.entriesRead

/-- Whether all bytes were read (`at_end`). -/
def atEnd (reader : RecordReader) : Bool := reader.rest.isEmpty

/-- Reads the rest of an entry of a type. -/
def readPayload : EntryType → ReadM Entry
  | .empty => pure .empty
  | .boolean => do return .boolean ((← rawByte) = 1)
  | .uint16 => do return .uint16 (← rawWord)
  | .string => do return .string (← rawText)
  | .byte => do return .byte (← rawByte)

/-- Reads the next entry of the current record (`read_entry`). It counts as read even if that
    fails. -/
def readEntry : ReadM Entry := do
  let reader ← get
  if reader.recordComplete then return .empty
  set { reader with entriesRead := reader.entriesRead + 1 }
  let tag ← rawByte
  match EntryType.ofTag? tag with
  | some type => readPayload type
  | none => throw (.unknownEntryType tag reader.offset)

/-- Reads an entry of the expected type and takes its value (`read_typed`). -/
def readTyped {α : Type} (expected : EntryType) (value? : Entry → Option α) : ReadM α := do
  let offset := (← get).offset
  let entry ← readEntry
  match value? entry with
  | some value => return value
  | none => throw (.typeMismatch expected entry.type offset)

/-- Reads an entry that holds a number (`read_u16`). -/
def readNumber : ReadM UInt16 :=
  readTyped .uint16 fun | .uint16 value => some value | _ => none

/-- Reads an entry that holds a text (`read_string`). -/
def readText : ReadM String :=
  readTyped .string fun | .string value => some value | _ => none

/-- Reads an entry that holds a truth value (`read_bool`). -/
def readBool : ReadM Bool :=
  readTyped .boolean fun | .boolean value => some value | _ => none

/-- Reads an entry that holds a byte (`read_byte`). -/
def readByte : ReadM UInt8 :=
  readTyped .byte fun | .byte value => some value | _ => none

/-! ## Records -/

/-- Reads a number of entries and drops them. -/
def skipEntries : Nat → ReadM Unit
  | 0 => pure ()
  | n + 1 => do
    let _ ← readEntry
    skipEntries n

/-- Goes to the start of the next record; `false` if there is none (`next_record`). -/
def nextRecord : ReadM Bool := do
  let reader ← get
  skipEntries (reader.entryCount.toNat - reader.entriesRead.toNat)
  if (← get).atEnd then return false
  let offset := (← get).offset
  let tag ← rawByte
  if tag ≠ recordTag then throw (.unexpectedRecordTag tag offset)
  let entryCount ← rawWord
  modify fun reader => { reader with entryCount, entriesRead := 0 }
  return true

end RecordReader

end GoldTables

import GoldTables.Record.Entry
import GoldTables.Record.Word
import GoldTables.Text.Utf16

/-!
# Writing records

The bytes of a header and of records. A text with a NUL character cannot be
written, since a zero ends it, and neither can a record of more entries than
a 16-bit number counts. What precedes the fault has been written by then, so
every result holds the bytes written beside the fault, if there is one.
-/

namespace GoldTables

/-- Why a record cannot be written. -/
inductive WriteFault where
  /-- The record has too many entries. -/
  | tooManyEntries (count : Nat)
  /-- A text holds a NUL character. -/
  | nulCharacter
  deriving DecidableEq

/-- The fault in words. -/
def WriteFault.message : WriteFault → String
  | .tooManyEntries count => s!"record has {count} entries; at most u16::MAX fit"
  | .nulCharacter => s!"{EntryType.string.name} entries cannot hold NUL characters"

/-- Bytes written, and the fault that ended the writing. -/
structure Written where
  bytes : List UInt8
  fault : Option WriteFault
  deriving DecidableEq

/-- The bytes, or the fault. -/
def Written.toExcept (written : Written) : Except WriteFault (List UInt8) :=
  match written.fault with
  | some fault => .error fault
  | none => .ok written.bytes

/-! ## Texts and entries -/

/-- The bytes of a text, with the zero that ends it. -/
def textBytes (s : String) : List UInt8 := (Text.toUtf16 s).flatMap wordBytes ++ wordBytes 0

/-- Whether a text holds a NUL character. -/
def hasNul (s : String) : Bool := s.toList.contains '\x00'

/-- Writes a text (`raw_string`). -/
def writeText (s : String) : Written :=
  if hasNul s then ⟨[], some .nulCharacter⟩ else ⟨textBytes s, none⟩

/-- Writes the header of a table file (`write_header`). -/
def writeHeader (header : String) : Written := writeText header

namespace Entry

/-- Whether an entry can be written. -/
def isWritable : Entry → Bool
  | .string s => !hasNul s
  | _ => true

/-- The bytes of an entry. -/
def bytes : Entry → List UInt8
  | .empty => [EntryType.empty.tag]
  | .boolean value => [EntryType.boolean.tag, if value then 1 else 0]
  | .uint16 value => EntryType.uint16.tag :: wordBytes value
  | .string value => EntryType.string.tag :: textBytes value
  | .byte value => [EntryType.byte.tag, value]

end Entry

/-! ## Records -/

/-- The bytes of a record whose entries can all be written. -/
def recordBytes (entries : List Entry) : List UInt8 :=
  recordTag :: wordBytes (UInt16.ofNat entries.length) ++ entries.flatMap Entry.bytes

/-- Writes a record (`write_record`). At an entry that cannot be written, its tag is the last byte
    written. -/
def writeRecord (entries : List Entry) : Written :=
  if 65535 < entries.length then ⟨[], some (.tooManyEntries entries.length)⟩
  else
    match entries.find? fun entry => !entry.isWritable with
    | none => ⟨recordBytes entries, none⟩
    | some entry =>
      ⟨recordTag :: wordBytes (UInt16.ofNat entries.length) ++
          (entries.takeWhile Entry.isWritable).flatMap Entry.bytes ++ [entry.type.tag],
        some .nulCharacter⟩

/-- The bytes of a table file: the header, then the records. The first fault ends it. -/
def fileBytes (header : String) (records : List (List Entry)) : Except WriteFault (List UInt8) := do
  let start ← (writeHeader header).toExcept
  let parts ← records.mapM fun entries => (writeRecord entries).toExcept
  return start ++ parts.flatten

end GoldTables

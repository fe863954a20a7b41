/-!
# Entries and records

A table file is a header text followed by records. A record is a list of typed
entries, and its first entry is a byte that says what the record describes.
This module knows the codes of the format and nothing of grammars.

Results:
* `EntryType.ofTag?_tag`, `RecordKind.ofCode?_code`: every code is read back.
-/

namespace GoldTables

/-- The header of a table file in the current version of the format. -/
def formatHeader : String := "GOLD Parser Tables/v5.0"

/-- The byte before every record. -/
def recordTag : UInt8 := 0x4D

/-! ## Entries -/

/-- The type of an entry. -/
inductive EntryType where
  | empty
  | boolean
  | uint16
  | string
  | byte
  deriving DecidableEq

/-- The byte that announces an entry of the type. -/
def EntryType.tag : EntryType → UInt8
  | .empty => 0x45
  | .boolean => 0x42
  | .uint16 => 0x49
  | .string => 0x53
  | .byte => 0x62

/-- The type that a byte announces (`EntryType.from_tag`). -/
def EntryType.ofTag? (tag : UInt8) : Option EntryType :=
  match tag with
  | 0x45 => some .empty
  | 0x42 => some .boolean
  | 0x49 => some .uint16
  | 0x53 => some .string
  | 0x62 => some .byte
  | _ => none

theorem EntryType.ofTag?_tag (type : EntryType) : ofTag? type.tag = some type := by
  cases type <;> rfl

/-- The type's name in messages. -/
def EntryType.name : EntryType → String
  | .empty => "Empty"
  | .boolean => "Boolean"
  | .uint16 => "UInt16"
  | .string => "String"
  | .byte => "Byte"

/-- One entry of a record. -/
inductive Entry where
  | empty
  | boolean (value : Bool)
  | uint16 (value : UInt16)
  | string (value : String)
  | byte (value : UInt8)
  deriving DecidableEq

/-- The type of an entry (`entry_type`). -/
def Entry.type : Entry → EntryType
  | .empty => .empty
  | .boolean _ => .boolean
  | .uint16 _ => .uint16
  | .string _ => .string
  | .byte _ => .byte

/-! ## Records -/

/-- What a record describes. -/
inductive RecordKind where
  | property
  | tableCounts
  | initialStates
  | symbol
  | production
  | dfaState
  | lrState
  | characterSet
  | group
  deriving DecidableEq

/-- The first byte of a record of the kind. -/
def RecordKind.code : RecordKind → UInt8
  | .property => 0x70
  | .tableCounts => 0x74
  | .initialStates => 0x49
  | .symbol => 0x53
  | .production => 0x52
  | .dfaState => 0x44
  | .lrState => 0x4C
  | .characterSet => 0x63
  | .group => 0x67

/-- The kind of record that a byte stands for (`RecordType.from_byte`). -/
def RecordKind.ofCode? (code : UInt8) : Option RecordKind :=
  match code with
  | 0x70 => some .property
  | 0x74 => some .tableCounts
  | 0x49 => some .initialStates
  | 0x53 => some .symbol
  | 0x52 => some .production
  | 0x44 => some .dfaState
  | 0x4C => some .lrState
  | 0x63 => some .characterSet
  | 0x67 => some .group
  | _ => none

theorem RecordKind.ofCode?_code (kind : RecordKind) : ofCode? kind.code = some kind := by
  cases kind <;> rfl

/-- The kind's name in messages. -/
def RecordKind.name : RecordKind → String
  | .property => "property"
  | .tableCounts => "table counts"
  | .initialStates => "initial states"
  | .symbol => "symbol"
  | .production => "production"
  | .dfaState => "DFA state"
  | .lrState => "LALR state"
  | .characterSet => "character set"
  | .group => "group"

end GoldTables

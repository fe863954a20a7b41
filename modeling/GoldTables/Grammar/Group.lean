/-!
# Lexical groups

A group is a stretch of input between two marks that is read as one token,
such as a comment or a string.

Results:
* `AdvanceMode.ofCode?_code`, `EndingMode.ofCode?_code`: the code of a mode is read back.
-/

namespace GoldTables

/-- How text inside a group is gathered. -/
inductive AdvanceMode where
  /-- Whole tokens are appended. -/
  | token
  /-- One character is appended, and the next token is read behind it. -/
  | character
  deriving DecidableEq

/-- The code of an advance mode. -/
def AdvanceMode.code : AdvanceMode → UInt16
  | .token => 0
  | .character => 1

/-- The advance mode of a code (`AdvanceMode.from_u16`). -/
def AdvanceMode.ofCode? (code : UInt16) : Option AdvanceMode :=
  match code with
  | 0 => some .token
  | 1 => some .character
  | _ => none

theorem AdvanceMode.ofCode?_code (mode : AdvanceMode) : ofCode? mode.code = some mode := by
  cases mode <;> rfl

/-- The mode's name. -/
def AdvanceMode.name : AdvanceMode → String
  | .token => "Token"
  | .character => "Character"

/-- What becomes of the closing mark of a group. -/
inductive EndingMode where
  /-- It stays in the input, as a line break behind a line comment does. -/
  | openEnded
  /-- It is the last part of the group. -/
  | closed
  deriving DecidableEq

/-- The code of an ending mode. -/
def EndingMode.code : EndingMode → UInt16
  | .openEnded => 0
  | .closed => 1

/-- The ending mode of a code (`EndingMode.from_u16`). -/
def EndingMode.ofCode? (code : UInt16) : Option EndingMode :=
  match code with
  | 0 => some .openEnded
  | 1 => some .closed
  | _ => none

theorem EndingMode.ofCode?_code (mode : EndingMode) : ofCode? mode.code = some mode := by
  cases mode <;> rfl

/-- The mode's name. -/
def EndingMode.name : EndingMode → String
  | .openEnded => "Open"
  | .closed => "Closed"

/-- A stretch of input between two marks that is read as one token, such as a comment. -/
structure Group where
  index : UInt16
  name : String
  /-- The symbol of the token. -/
  container : UInt16
  /-- The symbol that opens the group. -/
  start : UInt16
  /-- The symbol that closes the group. -/
  finish : UInt16
  advance : AdvanceMode
  ending : EndingMode
  /-- The groups that may open inside this one. -/
  nesting : List UInt16
  deriving DecidableEq

end GoldTables

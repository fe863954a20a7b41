import GoldTables.Json.Basic
import GoldTables.Text.Quoted

/-!
# Writing JSON

A value is written compactly, without any blank, or with one item or member
on each line, two blanks deeper than the bracket around it. An empty array or
object is written as its two brackets. In strings the quote, the backslash
and the control characters are escaped, and all else stands as it is.
-/

namespace GoldTables.Json

/-! ## Strings -/

/-- A character as it is written in a string. -/
def escapedChar (c : Char) : List Char :=
  if c = '"' then ['\\', '"']
  else if c = '\\' then ['\\', '\\']
  else if c = '\x08' then ['\\', 'b']
  else if c = '\x0c' then ['\\', 'f']
  else if c = '\n' then ['\\', 'n']
  else if c = '\r' then ['\\', 'r']
  else if c = '\t' then ['\\', 't']
  else if c < ' ' then ['\\', 'u', '0', '0'] ++ Text.hexByte (UInt8.ofNat c.toNat)
  else [c]

/-- A string with its quotes. -/
def quote (s : String) : String :=
  String.ofList ('"' :: s.toList.flatMap escapedChar ++ ['"'])

/-! ## The compact form -/

mutual

/-- A value without blanks. -/
def compact : Json → String
  | null => "null"
  | bool true => "true"
  | bool false => "false"
  | int n => toString n
  | fraction spelling => spelling
  | str s => quote s
  | arr [] => "[]"
  | arr (item :: items) => compactItems ("[" ++ item.compact) items ++ "]"
  | obj [] => "\x7b\x7d"
  | obj ((key, value) :: members) =>
    compactMembers ("\x7b" ++ quote key ++ ":" ++ value.compact) members ++ "\x7d"
  | unreadable => "null"

/-- Further items behind the text `done`. -/
def compactItems (done : String) : List Json → String
  | [] => done
  | item :: items => compactItems (done ++ "," ++ item.compact) items

/-- Further members behind the text `done`. -/
def compactMembers (done : String) : List (String × Json) → String
  | [] => done
  | (key, value) :: members =>
    compactMembers (done ++ "," ++ quote key ++ ":" ++ value.compact) members

end

/-! ## The indented form -/

/-- A new line at a depth. -/
def newLine (depth : Nat) : String := String.ofList ('\n' :: List.replicate (2 * depth) ' ')

mutual

/-- A value with one item or member on each line; `depth` is the depth of its brackets. -/
def prettyAt (depth : Nat) : Json → String
  | null => "null"
  | bool true => "true"
  | bool false => "false"
  | int n => toString n
  | fraction spelling => spelling
  | str s => quote s
  | arr [] => "[]"
  | arr (item :: items) =>
    prettyItems (depth + 1) ("[" ++ newLine (depth + 1) ++ item.prettyAt (depth + 1)) items ++
      newLine depth ++ "]"
  | obj [] => "\x7b\x7d"
  | obj ((key, value) :: members) =>
    prettyMembers (depth + 1)
        ("\x7b" ++ newLine (depth + 1) ++ quote key ++ ": " ++ value.prettyAt (depth + 1))
        members ++
      newLine depth ++ "\x7d"
  | unreadable => "null"

/-- Further items behind the text `done`. -/
def prettyItems (depth : Nat) (done : String) : List Json → String
  | [] => done
  | item :: items => prettyItems depth (done ++ "," ++ newLine depth ++ item.prettyAt depth) items

/-- Further members behind the text `done`. -/
def prettyMembers (depth : Nat) (done : String) : List (String × Json) → String
  | [] => done
  | (key, value) :: members =>
    prettyMembers depth
      (done ++ "," ++ newLine depth ++ quote key ++ ": " ++ value.prettyAt depth) members

end

/-- A value with one item or member on each line. -/
def pretty (value : Json) : String := value.prettyAt 0

end GoldTables.Json

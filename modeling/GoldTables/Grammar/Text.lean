import GoldTables.Grammar.Basic
import GoldTables.Text.Alphabetic

/-!
# Symbols and productions in BNF

A nonterminal stands in angle brackets, a literal terminal is written as it
is or between single quotes, and any other symbol stands in parentheses. A
literal needs no quotes if it has only letters, dots, underscores and hyphens.
-/

namespace GoldTables

/-- Whether a character of a literal needs no quotes. -/
def isPlain (c : Char) : Bool := Text.isAlphabetic c || c = '.' || c = '_' || c = '-'

/-- A literal terminal; `quote` asks for quotes even where none are needed (`literal_format`). -/
def literalText (name : String) (quote : Bool) : String :=
  if name = "'" then "''"
  else if quote || !name.toList.all isPlain then "'" ++ name ++ "'"
  else name

namespace Symbol

/-- A symbol in BNF; `quote` asks for quotes around every literal (`text_delimited`). -/
def delimited (symbol : Symbol) (quote : Bool) : String :=
  match symbol.kind with
  | .nonterminal => "<" ++ symbol.name ++ ">"
  | .content => literalText symbol.name quote
  | _ => "(" ++ symbol.name ++ ")"

/-- A symbol in BNF (`Symbol.text`). -/
def text (symbol : Symbol) : String := symbol.delimited false

end Symbol

namespace Tables

/-- The symbol of an index in BNF, or its number behind `#` if there is none. -/
def symbolLabel (tables : Tables) (index : UInt16) : String :=
  match tables.symbol? index with
  | some symbol => symbol.text
  | none => s!"#{index}"

/-- A production in BNF: `<Head> ::= body` (`production_text`). -/
def productionText (tables : Tables) (production : Production) : String :=
  production.body.foldl (fun text symbol => text ++ " " ++ tables.symbolLabel symbol)
    (tables.symbolLabel production.head ++ " ::=")

end Tables

end GoldTables

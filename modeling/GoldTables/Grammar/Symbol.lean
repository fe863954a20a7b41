/-!
# Symbols and productions

A symbol is a terminal or a nonterminal of a grammar; a production says what a
nonterminal stands for.

Results:
* `SymbolKind.ofCode?_code`: the code of a kind is read back.
-/

namespace GoldTables

/-- What a symbol is used for. -/
inductive SymbolKind where
  /-- A symbol that productions define. -/
  | nonterminal
  /-- A terminal that reaches the parser. -/
  | content
  /-- A terminal that the parser drops, such as a blank. -/
  | noise
  /-- The end of the input. -/
  | endOfInput
  /-- The opening mark of a group. -/
  | groupStart
  /-- The closing mark of a group. -/
  | groupEnd
  /-- Text that no terminal matches. -/
  | error
  deriving DecidableEq

/-- The code of a symbol kind in a table file. -/
def SymbolKind.code : SymbolKind → UInt16
  | .nonterminal => 0
  | .content => 1
  | .noise => 2
  | .endOfInput => 3
  | .groupStart => 4
  | .groupEnd => 5
  | .error => 7

/-- The symbol kind of a code; 6 is not in use (`SymbolKind.from_u16`). -/
def SymbolKind.ofCode? (code : UInt16) : Option SymbolKind :=
  match code with
  | 0 => some .nonterminal
  | 1 => some .content
  | 2 => some .noise
  | 3 => some .endOfInput
  | 4 => some .groupStart
  | 5 => some .groupEnd
  | 7 => some .error
  | _ => none

theorem SymbolKind.ofCode?_code (kind : SymbolKind) : ofCode? kind.code = some kind := by
  cases kind <;> rfl

/-- The kind's name. -/
def SymbolKind.name : SymbolKind → String
  | .nonterminal => "Nonterminal"
  | .content => "Content"
  | .noise => "Noise"
  | .endOfInput => "End"
  | .groupStart => "GroupStart"
  | .groupEnd => "GroupEnd"
  | .error => "Error"

/-- All symbol kinds. -/
def SymbolKind.all : List SymbolKind :=
  [.nonterminal, .content, .noise, .endOfInput, .groupStart, .groupEnd, .error]

/-- The kinds that are told to the user as expected after an unexpected token (`is_expectable`). -/
def SymbolKind.isExpectable : SymbolKind → Bool
  | .content | .endOfInput | .groupStart | .groupEnd => true
  | .nonterminal | .noise | .error => false

/-- A terminal or nonterminal. -/
structure Symbol where
  index : UInt16
  name : String
  kind : SymbolKind
  /-- The group that the symbol opens, closes or stands for. -/
  group : Option UInt16
  deriving DecidableEq

/-- A production: a head and the symbols it stands for. -/
structure Production where
  index : UInt16
  head : UInt16
  body : List UInt16
  deriving DecidableEq

end GoldTables

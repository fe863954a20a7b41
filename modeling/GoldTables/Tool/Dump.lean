import GoldTables.Grammar.JsonForm
import GoldTables.Text.Quoted
import GoldTables.Tool.Host

/-!
# The dump tool

Prints a summary of a table file, and writes the tables as JSON if a second
file is named.
-/

namespace GoldTables.Dump

/-- How the tool is called. -/
def usage : Failure := ⟨"usage: egt_dump <file.egt> [out.json]", []⟩

/-- A property: its name, padded to eighteen characters, and its value. -/
def propertyLine (name value : String) : String :=
  "  " ++ name ++ String.ofList (List.replicate (18 - name.length) ' ') ++ " " ++ value ++ "\n"

/-- The number of symbols of a kind. -/
def countKind (grammar : Grammar) (kind : SymbolKind) : Nat :=
  grammar.symbols.countP fun symbol => symbol.kind = kind

/-- The summary of a grammar that was loaded from a file in some time. -/
def summary (path elapsed : String) (grammar : Grammar) : String :=
  s!"[egt_dump] {path}: {Text.quoted grammar.header} | load {elapsed}\n" ++
    String.join ((grammar.properties.toList.filter fun property => property.2 ≠ "").map
      fun property => propertyLine property.1 property.2) ++
    s!"  symbols {grammar.symbols.size} ({countKind grammar .content} terminals, " ++
    s!"{countKind grammar .nonterminal} nonterminals, {countKind grammar .noise} noise)\n" ++
    s!"  productions {grammar.productions.size} | charsets {grammar.characterSets.size} | " ++
    s!"DFA states {grammar.dfaStates.size} | LALR states {grammar.lrStates.size} | " ++
    s!"groups {grammar.groups.size}\n"

variable {m : Type → Type} [Monad m]

/-- Dumps a loaded grammar. -/
def dump (host : Host m) (path elapsed : String) (grammar : Grammar) (out? : Option String) :
    m UInt32 := do
  host.print (summary path elapsed grammar)
  match out? with
  | none => return 0
  | some out =>
    if ← host.save out grammar.toDocument then
      host.print s!"[egt_dump] wrote {out}\n"
      return 0
    else host.fail ⟨s!"writing {out}", [SourceFault.missing.message]⟩

/-- Runs the tool. -/
def run (host : Host m) (args : List String) : m UInt32 := do
  match args with
  | [] => host.fail usage
  | path :: more =>
    let _ ← host.lap
    match ← host.loadGrammar path with
    | .error failure => host.fail failure
    | .ok grammar =>
      let elapsed ← host.lap
      dump host path elapsed grammar more.head?

end GoldTables.Dump

import GoldTables.Parser.Run
import GoldTables.Text.Utf8
import GoldTables.Tool.Host
import GoldTables.Tree.Render

/-!
# The parse tool

Parses files with the grammar of a table file and prints their trees.
-/

namespace GoldTables.ParseFiles

/-- How the tool is called. -/
def usage : Failure := ⟨"usage: egt_parse <file.egt> <input>...", []⟩

/-- How trees are made and shown. -/
structure Options where
  /-- Whether chain productions are left out. -/
  trim : Bool
  /-- Whether trees are shown as lines of text and not as JSON. -/
  lines : Bool

/-- More messages than any parse has. -/
def messageLimit : Nat := 0x4000000000000000

/-- The tree of a text. -/
def treeOf (grammar : Grammar) (options : Options) (text : String) : Except ParseError Token :=
  let parser := ((Parser.start grammar).setTrim options.trim).openText grammar text
  match Parser.parseTree grammar messageLimit parser with
  | some (answer, _) => answer
  | none => .error (.internal .start)

/-- A tree as it is shown. -/
def showTree (grammar : Grammar) (options : Options) (root : Token) : String :=
  if options.lines then grammar.renderTree root else (grammar.treeJson root).pretty

/-- The shown tree of a file with the given bytes. -/
def parseFile (grammar : Grammar) (options : Options) (path : String)
    (bytes? : Option (List UInt8)) : Except Failure String :=
  match bytes? with
  | none => .error ⟨s!"reading {path}", [SourceFault.missing.message]⟩
  | some bytes =>
    match Text.ofUtf8? bytes with
    | none => .error ⟨s!"reading {path}", ["stream did not contain valid UTF-8"]⟩
    | some text =>
      match treeOf grammar options text with
      | .ok root => .ok (showTree grammar options root)
      | .error fault => .error ⟨s!"parsing {path}", [fault.message]⟩

variable {m : Type → Type} [Monad m]

/-- Prints the outcome of a file. -/
def printOutcome (host : Host m) (path : String) : Except Failure String → m Unit
  | .ok shown => host.print s!"== {path}\n{shown}\n"
  | .error failure => host.printError s!"== {path}\nerror: {failure.line}\n"

/-- Parses files with a loaded grammar. -/
def parseAll (host : Host m) (grammar : Grammar) (options : Options) (paths : List String) :
    m UInt32 := do
  let _ ← host.lap
  let outcomes ← paths.mapM fun path => do
    return (path, parseFile grammar options path (← host.load path))
  let elapsed ← host.lap
  outcomes.forM fun (path, outcome) => printOutcome host path outcome
  let failed := outcomes.countP fun (_, outcome) => !outcome.isOk
  host.print s!"[egt_parse] {paths.length} inputs, {failed} failed | {elapsed}\n"
  return if failed = 0 then 0 else 1

/-- Whether a variable of the environment has a value. -/
def isSet (host : Host m) (name value : String) : m Bool := do
  return (← host.getVariable name) = some value

/-- Runs the tool. -/
def run (host : Host m) (args : List String) : m UInt32 := do
  match args with
  | path :: input :: inputs =>
    let options : Options := ⟨← isSet host "EGT_TRIM" "1", ← isSet host "EGT_FORMAT" "tree"⟩
    match ← host.loadGrammar path with
    | .error failure => host.fail failure
    | .ok grammar => parseAll host grammar options (input :: inputs)
  | _ => host.fail usage

end GoldTables.ParseFiles

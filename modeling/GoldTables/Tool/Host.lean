import GoldTables.Grammar.Load
import GoldTables.Tool.Failure

/-!
# What a tool runs on

A tool reads and writes files, prints, looks up variables of its environment
and measures time. A host provides this, so that a tool is an ordinary
definition over any host.
-/

namespace GoldTables

/-- A place for a tool to run. -/
structure Host (m : Type → Type) where
  /-- The bytes of a file; `none` if there is no such file. -/
  load : String → m (Option (List UInt8))
  /-- Writes a text to a file; `false` if there is no such place. -/
  save : String → String → m Bool
  /-- A variable of the environment. -/
  getVariable : String → m (Option String)
  /-- Prints a text. -/
  print : String → m Unit
  /-- Prints a text about a failure. -/
  printError : String → m Unit
  /-- The time since the last lap, in words. -/
  lap : m String

variable {m : Type → Type} [Monad m]

/-- Prints the report of a failure and yields the exit code of one. -/
def Host.fail (host : Host m) (failure : Failure) : m UInt32 := do
  host.printError failure.report
  return 1

/-- The causes that a fault of a table file stands for. -/
def LoadError.causes (fault : LoadError) : List String :=
  match fault with
  | .io _ source => [fault.message, source.message]
  | _ => [fault.message]

/-- Loads the grammar of a table file. -/
def Host.loadGrammar (host : Host m) (path : String) : m (Except Failure Grammar) := do
  let loaded :=
    match ← host.load path with
    | some bytes => Grammar.ofBytes bytes
    | none => .error (.io 0 .missing)
  return loaded.mapError fun fault => ⟨s!"loading {path}", fault.causes⟩

end GoldTables

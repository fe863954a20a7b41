import GoldTables.Tool.Dump
import GoldTables.Tool.ParseFiles

/-!
# The command line

The first argument names the tool, the others are its own.
-/

namespace GoldTables

/-- A time in nanoseconds as milliseconds with three decimals. -/
def milliseconds (nanoseconds : Nat) : String :=
  let micros := (nanoseconds + 500) / 1000
  let decimals := toString (micros % 1000)
  let zeros := String.ofList (List.replicate (3 - decimals.length) '0')
  s!"{micros / 1000}.{zeros}{decimals} ms"

/-- Runs an action that fails where there is no file. -/
def ifPresent {α : Type} (action : IO α) : IO (Option α) := do
  try
    return some (← action)
  catch _ => return none

/-- The machine as a host; `clock` holds the time of the last lap. -/
def machine (clock : IO.Ref Nat) : Host IO where
  load path := do
    return (← ifPresent (IO.FS.readBinFile path)).map fun bytes => bytes.toList
  save path text := do
    return (← ifPresent (IO.FS.writeFile path text)).isSome
  getVariable name := IO.getEnv name
  print text := do (← IO.getStdout).putStr text
  printError text := do (← IO.getStderr).putStr text
  lap := do
    let now ← IO.monoNanosNow
    let before ← clock.modifyGet fun before => (before, now)
    return milliseconds (now - before)

end GoldTables

/-- Runs the tool that the first argument names. -/
def main (args : List String) : IO UInt32 := do
  let host := GoldTables.machine (← IO.mkRef 0)
  match args with
  | "egt_dump" :: args => GoldTables.Dump.run host args
  | "egt_parse" :: args => GoldTables.ParseFiles.run host args
  | _ => host.fail ⟨"usage: egt_dump|egt_parse <argument>...", []⟩

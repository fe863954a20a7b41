/-!
# Failures of a tool

A failure says what the tool was doing, and why that went wrong: a chain of
causes, each the reason for the one before it. It is told on one line, or as
a report with one cause on each line. The lines of a cause that has several
stay aligned.
-/

namespace GoldTables

/-- What went wrong, and why. -/
structure Failure where
  context : String
  causes : List String
  deriving DecidableEq

namespace Failure

/-- The failure on one line. -/
def line (failure : Failure) : String := ": ".intercalate (failure.context :: failure.causes)

/-- A cause behind a mark, with its further lines indented as deep as the mark is wide. -/
def causeLines (mark cause : String) : String :=
  let indent := String.ofList (List.replicate mark.length ' ')
  "\n" ++ mark ++ ("\n" ++ indent).intercalate (cause.splitOn "\n")

/-- The mark of a cause in a list of several: its number, five places wide. -/
def numberMark (number : Nat) : String :=
  let digits := toString number
  String.ofList (List.replicate (5 - digits.length) ' ') ++ digits ++ ": "

/-- The lines of all causes. -/
def causesText : List String → String
  | [] => ""
  | [cause] => "\n\nCaused by:" ++ causeLines "    " cause
  | causes =>
    "\n\nCaused by:" ++
      String.join (causes.zipIdx.map fun (cause, number) => causeLines (numberMark number) cause)

/-- The failure as a report. -/
def report (failure : Failure) : String :=
  "Error: " ++ failure.context ++ causesText failure.causes ++ "\n"

end Failure

end GoldTables

import GoldTables.Position
import GoldTables.Text.Quoted

/-!
# Why an input has no tree

The end of a parse other than acceptance, with where it is and what was found.
-/

namespace GoldTables

/-- Why an input has no tree. -/
inductive ParseError where
  /-- Text that no terminal matches. -/
  | lexical (text : String) (position : Position)
  /-- A token that cannot stand where it does, and the ones that could. -/
  | unexpected (found : String) (expected : List String) (position : Position)
  /-- The input ended inside a group. -/
  | group (position : Position)
  /-- The tables contradict each other. -/
  | internal (position : Position)
  /-- There is no input. -/
  | notLoaded
  deriving DecidableEq

/-- The reason in words. -/
def ParseError.message : ParseError → String
  | .lexical text position =>
    s!"lexical error at {position.text}: cannot recognize {Text.quoted text}"
  | .unexpected found expected position =>
    s!"syntax error at {position.text}: read {found}, expecting " ++ " ".intercalate expected
  | .group position =>
    s!"runaway group at {position.text}: end of input reached inside a group"
  | .internal position =>
    s!"internal error at {position.text}: the parse tables are inconsistent"
  | .notLoaded => "no input has been opened"

end GoldTables

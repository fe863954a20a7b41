import GoldTables.Grammar.Link
import GoldTables.Json.Document

/-!
# Reading grammars from JSON

Reading takes more than writing yields. Members of other names are skipped, an
object may also be the array of its values in order, and a name may also be an
object with that name and null. A member must not be missing or repeated; only
an optional index may be missing.
-/

namespace GoldTables

/-! ## Parts of values -/

namespace Json

/-- The values of the named members: of an object whatever is there, of an array its items. -/
def fields? (names : List String) : Json → Option (List (Option Json))
  | .obj members => names.mapM fun name =>
    match members.filter fun member => member.1 = name with
    | [] => some none
    | [(_, value)] => some (some value)
    | _ => none
  | .arr items => if items.length = names.length then some (items.map some) else none
  | _ => none

/-- A 16-bit unsigned integer. -/
def uint16? : Json → Option UInt16
  | .int n => if 0 ≤ n ∧ n < 65536 then some (UInt16.ofNat n.toNat) else none
  | _ => none

/-- A string. -/
def text? : Json → Option String
  | .str s => some s
  | _ => none

/-- An array. -/
def list? {α : Type} (item? : Json → Option α) : Json → Option (List α)
  | .arr items => items.mapM item?
  | _ => none

/-- An optional 16-bit unsigned integer, as the value of a member that may be missing. -/
def index? : Option Json → Option (Option UInt16)
  | none | some .null => some none
  | some value => value.uint16?.map some

/-- A name, and the value that comes with it. -/
def variant? : Json → Option (String × Option Json)
  | .str name => some (name, none)
  | .obj [(name, value)] => some (name, some value)
  | _ => none

/-- A name without a value, or with null. -/
def name? (value : Json) : Option String :=
  match value.variant? with
  | some (name, none) | some (name, some .null) => some name
  | _ => none

end Json

/-! ## Rows and tables -/

open Json

/-- The symbol kind of a JSON value. -/
def SymbolKind.ofJson? (value : Json) : Option SymbolKind := do
  let name ← value.name?
  SymbolKind.all.find? fun kind => kind.name = name

/-- The advance mode of a JSON value. -/
def AdvanceMode.ofJson? (value : Json) : Option AdvanceMode := do
  let name ← value.name?
  [AdvanceMode.token, .character].find? fun mode => mode.name = name

/-- The ending mode of a JSON value. -/
def EndingMode.ofJson? (value : Json) : Option EndingMode := do
  let name ← value.name?
  [EndingMode.openEnded, .closed].find? fun mode => mode.name = name

/-- The symbol of a JSON value. -/
def Symbol.ofJson? (value : Json) : Option Symbol := do
  match ← value.fields? ["index", "name", "kind", "group"] with
  | [some index, some name, some kind, group] =>
    return {
      index := ← index.uint16?
      name := ← name.text?
      kind := ← SymbolKind.ofJson? kind
      group := ← index? group }
  | _ => none

/-- The production of a JSON value. -/
def Production.ofJson? (value : Json) : Option Production := do
  match ← value.fields? ["index", "head", "body"] with
  | [some index, some head, some body] =>
    return { index := ← index.uint16?, head := ← head.uint16?, body := ← body.list? uint16? }
  | _ => none

/-- The range of characters of a JSON value. -/
def CharacterRange.ofJson? (value : Json) : Option CharacterRange := do
  match ← value.fields? ["start", "end"] with
  | [some start, some last] => return { start := ← start.uint16?, last := ← last.uint16? }
  | _ => none

/-- The character set of a JSON value. -/
def CharacterSet.ofJson? (value : Json) : Option CharacterSet := do
  match ← value.fields? ["codepage", "ranges"] with
  | [some codepage, some ranges] =>
    return { codepage := ← codepage.uint16?, ranges := ← ranges.list? CharacterRange.ofJson? }
  | _ => none

/-- The edge of a JSON value. -/
def DfaEdge.ofJson? (value : Json) : Option DfaEdge := do
  match ← value.fields? ["set", "target"] with
  | [some set, some target] => return { set := ← set.uint16?, target := ← target.uint16? }
  | _ => none

/-- The automaton state of a JSON value. -/
def DfaState.ofJson? (value : Json) : Option DfaState := do
  match ← value.fields? ["accept", "edges"] with
  | [accept, some edges] =>
    return { accept := ← index? accept, edges := ← edges.list? DfaEdge.ofJson? }
  | _ => none

/-- The action of a JSON value. -/
def Action.ofJson? (value : Json) : Option Action := do
  match ← value.variant? with
  | ("Shift", some state) => return .shift (← state.uint16?)
  | ("Reduce", some production) => return .reduce (← production.uint16?)
  | ("Goto", some state) => return .goto (← state.uint16?)
  | ("Accept", none) | ("Accept", some .null) => return .accept
  | ("Error", none) | ("Error", some .null) => return .error
  | _ => none

/-- The action and its symbol of a JSON value. -/
def LrAction.ofJson? (value : Json) : Option LrAction := do
  match ← value.fields? ["symbol", "action"] with
  | [some symbol, some action] =>
    return { symbol := ← symbol.uint16?, action := ← Action.ofJson? action }
  | _ => none

/-- The parser state of a JSON value. A document holds no index, and `Tables.link` makes one. -/
def LrState.ofJson? (value : Json) : Option LrState := do
  match ← value.fields? ["actions"] with
  | [some actions] =>
    return { actions := (← actions.list? LrAction.ofJson?).toArray, places := ∅ }
  | _ => none

/-- The group of a JSON value. -/
def Group.ofJson? (value : Json) : Option Group := do
  match ← value.fields?
      ["index", "name", "container", "start", "end", "advance", "ending", "nesting"] with
  | [some index, some name, some container, some start, some finish, some advance, some ending,
      some nesting] =>
    return {
      index := ← index.uint16?
      name := ← name.text?
      container := ← container.uint16?
      start := ← start.uint16?
      finish := ← finish.uint16?
      advance := ← AdvanceMode.ofJson? advance
      ending := ← EndingMode.ofJson? ending
      nesting := ← nesting.list? uint16? }
  | _ => none

/-- The properties of a JSON value. -/
def Properties.ofJson? (value : Json) : Option Properties := do
  match ← value.fields? ["values"] with
  | [some values] =>
    let values ← values.list? text?
    if h : values.length = 8 then return ⟨⟨values.toArray, by simp [h]⟩⟩ else none
  | _ => none

/-- The tables of a JSON value. -/
def Tables.ofJson? (value : Json) : Option Tables := do
  match ← value.fields? ["header", "properties", "symbols", "charsets", "productions",
      "dfa_states", "lr_states", "groups", "dfa_initial", "lr_initial"] with
  | [some header, some properties, some symbols, some characterSets, some productions,
      some dfaStates, some lrStates, some groups, some dfaInitial, some lrInitial] =>
    return {
      header := ← header.text?
      properties := ← Properties.ofJson? properties
      symbols := (← symbols.list? Symbol.ofJson?).toArray
      characterSets := (← characterSets.list? CharacterSet.ofJson?).toArray
      productions := (← productions.list? Production.ofJson?).toArray
      dfaStates := (← dfaStates.list? DfaState.ofJson?).toArray
      lrStates := (← lrStates.list? LrState.ofJson?).toArray
      groups := (← groups.list? Group.ofJson?).toArray
      dfaInitial := ← dfaInitial.uint16?
      lrInitial := ← lrInitial.uint16? }
  | _ => none

/-- The grammar of a JSON document (`load_grammar_json_bytes`). -/
def Grammar.ofDocument (document : List UInt8) : Except LoadError Grammar := do
  match (Json.parse? document).bind Tables.ofJson? with
  | some tables => tables.link
  | none => throw .json

end GoldTables

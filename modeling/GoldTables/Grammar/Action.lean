import Std.Data.TreeMap

/-!
# The parser's actions

In each of its states the parser has a list of actions, each on a symbol. The
first action on a symbol is the one in effect.

Results:
* `Action.ofTable?_toTable`: the numbers of an action are read back.
-/

namespace GoldTables

/-- What the parser does on a symbol. -/
inductive Action where
  | shift (state : UInt16)
  | reduce (production : UInt16)
  | goto (state : UInt16)
  | accept
  | error
  deriving DecidableEq

/-- The action of a pair of numbers in a table file (`from_table`). -/
def Action.ofTable? (kind target : UInt16) : Option Action :=
  match kind with
  | 1 => some (.shift target)
  | 2 => some (.reduce target)
  | 3 => some (.goto target)
  | 4 => some .accept
  | 5 => some .error
  | _ => none

/-- The pair of numbers of an action (`to_table`). -/
def Action.toTable : Action → UInt16 × UInt16
  | .shift state => (1, state)
  | .reduce production => (2, production)
  | .goto state => (3, state)
  | .accept => (4, 0)
  | .error => (5, 0)

theorem Action.ofTable?_toTable (action : Action) :
    ofTable? action.toTable.1 action.toTable.2 = some action := by
  cases action <;> rfl

/-- An action and the symbol it is taken on. -/
structure LrAction where
  symbol : UInt16
  action : Action
  deriving DecidableEq

/-- The actions of one parser state, in table order, with an index from symbols to places in
    the table. Of two actions on one symbol the first is in effect. -/
structure LrState where
  actions : Array LrAction
  places : Std.TreeMap UInt16 Nat

namespace LrState

/-- The state without actions. -/
def empty : LrState := ⟨#[], ∅⟩

/-- Appends an action; an earlier action on the same symbol stays in effect (`LrState.push`). -/
def push (state : LrState) (symbol : UInt16) (action : Action) : LrState where
  actions := state.actions.push ⟨symbol, action⟩
  places := state.places.insertIfNew symbol state.actions.size

/-- The state with these actions, in this order. -/
def ofActions (actions : List LrAction) : LrState :=
  actions.foldl (fun state row => state.push row.symbol row.action) empty

/-- The state with its index made anew (`reindex`): of the actions on one symbol the first is in
    effect, whatever the index held before. -/
def reindex (state : LrState) : LrState where
  actions := state.actions
  places := state.actions.toList.zipIdx.foldl
    (fun places row => places.insertIfNew row.1.symbol row.2) ∅

/-- The action in effect on a symbol (`LrState.action`). -/
def action? (state : LrState) (symbol : UInt16) : Option Action := do
  let row ← state.actions[← state.places[symbol]?]?
  return row.action

end LrState

end GoldTables

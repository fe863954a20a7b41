import GoldTables.Proofs.LoadedGrammars

/-!
# Consistent tables

A parser that follows its tables walks along the edges of an automaton, which
are the actions that shift a symbol or go to a state. The tables are
consistent if in every state that applies a production the walk so far has
ended in the body of the production.

Walks are of any length, so consistency itself is no check. `checkPast` is one:
it is given the symbols that all walks to a state end in, for every state, and
looks at each action once.

Results:
* `Grammar.Loaded.consistent_of_checkPast`: tables that pass the check are consistent.
-/

namespace GoldTables

/-! ## Walks -/

namespace Tables

/-- The parser enters a state from another over a symbol. -/
def Edge (tables : Tables) (state symbol target : UInt16) : Prop :=
  tables.action? state symbol = some (.shift target) ∨
    tables.action? state symbol = some (.goto target)

/-- The edges over symbols lead from the initial state to a state. -/
inductive Path (tables : Tables) : List UInt16 → UInt16 → Prop where
  | start : Path tables [] tables.lrInitial
  | edge {symbols : List UInt16} {state symbol target : UInt16} (h : Path tables symbols state)
    (hedge : tables.Edge state symbol target) : Path tables (symbols ++ [symbol]) target

/-- A state applies a production only behind its body. -/
def Consistent (tables : Tables) : Prop :=
  ∀ symbols state, tables.Path symbols state →
    ∀ symbol index production, tables.action? state symbol = some (.reduce index) →
      tables.production? index = some production → production.body <:+ symbols

/-! ## The check -/

/-- An action agrees with the symbols that the walks to each state end in. -/
def agrees (tables : Tables) (past : UInt16 → List UInt16) (state : UInt16) (row : LrAction) :
    Bool :=
  match row.action with
  | .shift target | .goto target => (past target).isSuffixOf (past state ++ [row.symbol])
  | .reduce index =>
    (tables.production? index).all fun production => production.body.isSuffixOf (past state)
  | .accept | .error => true

/-- All actions agree with the symbols that the walks to each state end in. -/
def checkPast (tables : Tables) (past : UInt16 → List UInt16) : Bool :=
  (past tables.lrInitial).isEmpty &&
    (List.range tables.lrStates.size).all fun place =>
      (tables.lrStates[place]?).all fun row =>
        row.actions.toList.all (tables.agrees past (.ofNat place))

variable {tables : Tables} {past : UInt16 → List UInt16} {state symbol target : UInt16}

theorem agrees_of_checkPast (h : tables.checkPast past = true) {row : LrState} {entry : LrAction}
    (hrow : tables.lrState? state = some row) (hentry : entry ∈ row.actions.toList) :
    tables.agrees past state entry = true := by
  obtain ⟨-, hall⟩ := Bool.and_eq_true_iff.1 h
  have hlt : state.toNat < tables.lrStates.size := (Array.getElem?_eq_some_iff.1 hrow).1
  have hplace := List.all_eq_true.1 hall state.toNat (List.mem_range.2 hlt)
  rw [show tables.lrStates[state.toNat]? = some row from hrow, UInt16.ofNat_toNat] at hplace
  exact List.all_eq_true.1 hplace entry hentry

end Tables

/-! ## Tables that pass are consistent -/

namespace Grammar.Loaded

variable {grammar : Grammar} {past : UInt16 → List UInt16} {state symbol target : UInt16}

/-- The action in effect stands in the row of its state. -/
theorem exists_row_of_action? (h : grammar.Loaded) {action : Action}
    (haction : grammar.action? state symbol = some action) :
    ∃ row, grammar.lrState? state = some row ∧ ⟨symbol, action⟩ ∈ row.actions.toList := by
  obtain ⟨row, hrow, haction⟩ := Option.bind_eq_some_iff.1 haction
  rw [(h.indexed row (Array.mem_of_getElem? hrow)).action?_eq] at haction
  obtain ⟨⟨found, same⟩, hfind, rfl⟩ := Option.map_eq_some_iff.1 haction
  have hsymbol : found = symbol := by simpa using List.find?_some hfind
  rw [← hsymbol]
  exact ⟨row, hrow, List.mem_of_find?_eq_some hfind⟩

theorem agrees_of_action? (h : grammar.Loaded) (hcheck : grammar.checkPast past = true)
    {action : Action} (haction : grammar.action? state symbol = some action) :
    grammar.agrees past state ⟨symbol, action⟩ = true := by
  obtain ⟨row, hrow, hentry⟩ := h.exists_row_of_action? haction
  exact Tables.agrees_of_checkPast hcheck hrow hentry

/-- Every walk to a state ends in the symbols given for it. -/
theorem past_suffix_of_path (h : grammar.Loaded) (hcheck : grammar.checkPast past = true)
    {symbols : List UInt16} (hpath : grammar.Path symbols state) : past state <:+ symbols := by
  induction hpath with
  | start =>
    have hempty := (Bool.and_eq_true_iff.1 hcheck).1
    exact List.suffix_nil.2 (List.isEmpty_iff.1 hempty)
  | @edge symbols state symbol target _ hedge ih =>
    have hsuffix : past target <:+ past state ++ [symbol] := by
      rcases hedge with hshift | hgoto
      · exact List.isSuffixOf_iff_suffix.1 (h.agrees_of_action? hcheck hshift)
      · exact List.isSuffixOf_iff_suffix.1 (h.agrees_of_action? hcheck hgoto)
    obtain ⟨front, rfl⟩ := ih
    refine hsuffix.trans ⟨front, ?_⟩
    rw [List.append_assoc]

/-- Tables that pass the check are consistent. -/
theorem consistent_of_checkPast (h : grammar.Loaded) (hcheck : grammar.checkPast past = true) :
    grammar.Consistent := by
  intro symbols state hpath symbol index production haction hproduction
  have hagrees := h.agrees_of_action? hcheck haction
  have hsuffix : production.body <:+ past state := by
    simp only [Tables.agrees, hproduction, Option.all_some] at hagrees
    exact List.isSuffixOf_iff_suffix.1 hagrees
  exact hsuffix.trans (h.past_suffix_of_path hcheck hpath)

end Grammar.Loaded

end GoldTables

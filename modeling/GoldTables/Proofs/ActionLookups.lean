import GoldTables.Proofs.JsonRoundTrip
import Mathlib.Data.List.Forall2

/-!
# Actions are looked up in their lists

A parser state holds its actions twice: as a list in table order, and as an
index from symbols to places in the list. Two routines write the index. Pushing
an action enters it beside the action, and linking makes the index of every
state anew, whatever it held before. Both leave the same: the list is what was
pushed or read, and on every symbol the first action of the list is in effect.

Results:
* `LrState.Indexed.keeps`: an index that is in order, beside its list.
* `Tables.keepsActions_of_link`: the parser states of a grammar, beside those it was linked from.
* `keeps_actions`: actions that were pushed, or read and linked.
-/

namespace GoldTables

/-! ## States and their lists -/

/-- The state holds the actions of a list, in the order of the list. On every symbol the first of
    them is in effect, and the index holds only places in the list. -/
structure LrState.Keeps (state : LrState) (rows : List LrAction) : Prop where
  actions : state.actions.toList = rows
  action? : ∀ symbol, state.action? symbol =
    (rows.find? fun row => row.symbol = symbol).map LrAction.action
  places : ∀ (symbol : UInt16) (place : Nat), state.places[symbol]? = some place →
    place < state.actions.size

/-- The parser states of the grammar hold the actions of those in the tables, state by state. -/
def Grammar.KeepsActions (grammar : Grammar) (tables : Tables) : Prop :=
  List.Forall₂ LrState.Keeps grammar.lrStates.toList
    (tables.lrStates.toList.map fun state => state.actions.toList)

namespace LrState

theorem Indexed.keeps {state : LrState} (h : state.Indexed) : state.Keeps state.actions.toList where
  actions := rfl
  action? := h.action?_eq
  places symbol place hplace := by
    rw [h.findsFirst symbol] at hplace
    exact (List.findIdx?_eq_some_iff_getElem.1 hplace).1

theorem keeps_ofActions (rows : List LrAction) : (ofActions rows).Keeps rows := by
  have hkeeps := (indexed_ofActions rows).keeps
  rwa [actions_ofActions] at hkeeps

/-- An index that is made anew is in order, and stays so when actions are pushed. -/
theorem keeps_foldl_reindex (state : LrState) (rows : List LrAction) :
    (rows.foldl (fun state row => state.push row.symbol row.action) state.reindex).Keeps
      (state.actions.toList ++ rows) := by
  have hkeeps := keeps_ofActions (state.actions.toList ++ rows)
  rwa [ofActions, List.foldl_append, ← ofActions, ← reindex_eq_ofActions] at hkeeps

end LrState

/-! ## Grammars and their tables -/

theorem Tables.keepsActions_of_link {tables : Tables} {grammar : Grammar}
    (h : tables.link = .ok grammar) : grammar.KeepsActions tables := by
  obtain ⟨-, _, _, -, -, rfl⟩ := link_eq_ok_iff.1 h
  show List.Forall₂ LrState.Keeps (tables.lrStates.map LrState.reindex).toList _
  rw [Array.toList_map, List.forall₂_map_left_iff, List.forall₂_map_right_iff, List.forall₂_same]
  exact fun state _ => state.indexed_reindex.keeps

/-- Actions that were pushed one by one, pushed behind others whose index was made anew, or read
    from a file or a document: their state keeps them all, in order, and the first one on a symbol
    is in effect, whatever an index held before it was made anew. -/
theorem keeps_actions :
    (∀ rows : List LrAction,
      (rows.foldl (fun state row => state.push row.symbol row.action) LrState.empty).Keeps rows) ∧
    (∀ (state : LrState) (rows : List LrAction),
      (rows.foldl (fun state row => state.push row.symbol row.action) state.reindex).Keeps
        (state.actions.toList ++ rows)) ∧
    (∀ (tables : Tables) (grammar : Grammar), tables.link = .ok grammar →
      grammar.KeepsActions tables) ∧
    (∀ (bytes : List UInt8) (grammar : Grammar), Grammar.ofBytes bytes = .ok grammar →
      ∃ reader records tables, RecordReader.open? bytes = .ok reader ∧
        tableRecords reader = (records, none) ∧
        Tables.ofRecords reader.header records none = .ok tables ∧ grammar.KeepsActions tables) ∧
    ∀ (document : List UInt8) (grammar : Grammar), Grammar.ofDocument document = .ok grammar →
      ∃ tables, (Json.parse? document).bind Tables.ofJson? = some tables ∧
        grammar.KeepsActions tables := by
  refine ⟨LrState.keeps_ofActions, LrState.keeps_foldl_reindex,
    fun _ _ => Tables.keepsActions_of_link, fun bytes grammar h => ?_, fun document grammar h => ?_⟩
  · obtain ⟨reader, hopen, h⟩ := except_bind_eq_ok.1 h
    cases hrecords : tableRecords reader with
    | mk records fault =>
      rw [hrecords] at h
      obtain ⟨tables, htables, hlink⟩ := except_bind_eq_ok.1 h
      obtain ⟨rfl, -⟩ := Tables.ofRecords_eq_ok_iff.1 htables
      exact ⟨reader, records, tables, hopen, hrecords, htables,
        Tables.keepsActions_of_link hlink⟩
  · obtain ⟨tables, htables, hlink⟩ := Grammar.ofDocument_eq_ok h
    exact ⟨tables, htables, Tables.keepsActions_of_link hlink⟩

/-- Tables with a parser state that has three actions on one symbol and an index that knows nothing
    of them. -/
def conflictTables : Tables where
  header := formatHeader
  properties := .empty
  symbols := #[⟨0, "EOF", .endOfInput, none⟩, ⟨1, "Error", .error, none⟩]
  characterSets := #[]
  productions := #[]
  dfaStates := #[⟨none, []⟩]
  lrStates := #[⟨#[⟨1, .goto 0⟩, ⟨0, .accept⟩, ⟨0, .shift 0⟩, ⟨0, .accept⟩],
    (∅ : Std.TreeMap UInt16 Nat).insert 0 2 |>.insert 1 9⟩]
  groups := #[]
  dfaInitial := 0
  lrInitial := 0

theorem keeps_actions_conflictTables : ∃ linked loaded : Grammar,
    conflictTables.link = .ok linked ∧ linked.KeepsActions conflictTables ∧
    (linked.lrStates[0]?.bind fun state => state.action? 0) = some .accept ∧
    Grammar.ofBytes sampleFile = .ok loaded ∧
    (∃ reader records tables, RecordReader.open? sampleFile = .ok reader ∧
      tableRecords reader = (records, none) ∧
      Tables.ofRecords reader.header records none = .ok tables ∧ loaded.KeepsActions tables) ∧
    Grammar.ofDocument (Text.toUtf8 linked.toDocument) = .ok linked ∧
    ∃ tables, (Json.parse? (Text.toUtf8 linked.toDocument)).bind Tables.ofJson? = some tables ∧
      linked.KeepsActions tables := by
  have hcheck : conflictTables.renumber.check = .ok () := by with_unfolding_all rfl
  obtain ⟨linked, hlink, haction⟩ : ∃ linked, conflictTables.link = .ok linked ∧
      (linked.lrStates[0]?.bind fun state => state.action? 0) = some .accept := by
    rw [Tables.link, hcheck]
    exact ⟨_, rfl, by decide +kernel⟩
  obtain ⟨loaded, hloaded⟩ := Grammar.exists_ofBytes_sampleFile
  have hdocument := Grammar.ofDocument_toDocument_of_link hlink
  obtain ⟨-, -, hkeeps, hfile, hread⟩ := keeps_actions
  exact ⟨linked, loaded, hlink, hkeeps _ _ hlink, haction, hloaded, hfile _ _ hloaded, hdocument,
    hread _ _ hdocument⟩

end GoldTables

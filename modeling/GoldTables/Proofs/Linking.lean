import GoldTables.Grammar.Link
import GoldTables.Proofs.DraftFilling

/-!
# Linked grammars

A grammar that is handed out has all indices in range, the symbols for the end
of the input and for unmatched text have their kinds, and its tables differ
from the numbered ones only in the groups of the symbols. Numbering and
linking again changes nothing.

Results:
* `check_eq_ok_iff`: the checks pass on the tables whose indices are all in range, and on no
  others.
* `link_eq_ok_iff`: which grammar the tables are linked to, and when.
* `link_renumber`, `link_header`: numbering first makes no difference, nor does the header.
* `kind?_of_neededSymbol`: a symbol that a lexer needs has the kind it is needed for.
-/

namespace GoldTables

/-! ## Checks of lists -/

theorem forM_eq_ok {ε α : Type} {f : α → Except ε Unit} {items : List α} :
    items.forM f = .ok () ↔ ∀ item ∈ items, f item = .ok () := by
  induction items with
  | nil => exact ⟨fun _ _ h => absurd h List.not_mem_nil, fun _ => rfl⟩
  | cons item items ih =>
    rw [show (item :: items).forM f = (f item >>= fun _ => items.forM f) from rfl,
      except_bind_eq_ok, List.forall_mem_cons]
    constructor
    · rintro ⟨⟨⟩, hitem, hitems⟩; exact ⟨hitem, ih.1 hitems⟩
    · rintro ⟨hitem, hitems⟩; exact ⟨(), hitem, ih.2 hitems⟩

namespace Tables

/-! ## Indices in range -/

/-- What an action refers to exists. -/
def ActionInRange (tables : Tables) : Action → Prop
  | .shift state | .goto state => state.toNat < tables.lrStates.size
  | .reduce production => production.toNat < tables.productions.size
  | .accept | .error => True

/-- The head of a production is a nonterminal, and the symbols of its body exist. -/
structure ProductionInRange (tables : Tables) (production : Production) : Prop where
  head : production.head.toNat < tables.symbols.size
  headKind : tables.kind? production.head = some .nonterminal
  body : ∀ symbol ∈ production.body, symbol.toNat < tables.symbols.size

/-- What a state of the automaton refers to exists. -/
structure DfaStateInRange (tables : Tables) (state : DfaState) : Prop where
  accept : ∀ symbol, state.accept = some symbol → symbol.toNat < tables.symbols.size
  edges : ∀ edge ∈ state.edges,
    edge.set.toNat < tables.characterSets.size ∧ edge.target.toNat < tables.dfaStates.size

/-- What a parser state refers to exists. -/
def LrStateInRange (tables : Tables) (state : LrState) : Prop :=
  ∀ row ∈ state.actions, row.symbol.toNat < tables.symbols.size ∧ tables.ActionInRange row.action

/-- The symbols of a group and the groups nested in it exist. -/
structure GroupInRange (tables : Tables) (group : Group) : Prop where
  container : group.container.toNat < tables.symbols.size
  start : group.start.toNat < tables.symbols.size
  finish : group.finish.toNat < tables.symbols.size
  nesting : ∀ nested ∈ group.nesting, nested.toNat < tables.groups.size

/-- Every index in the tables is inside the table that it refers to. -/
structure InRange (tables : Tables) : Prop where
  productions : ∀ production ∈ tables.productions, tables.ProductionInRange production
  dfaStates : ∀ state ∈ tables.dfaStates, tables.DfaStateInRange state
  lrStates : ∀ state ∈ tables.lrStates, tables.LrStateInRange state
  groups : ∀ group ∈ tables.groups, tables.GroupInRange group
  dfaInitial : tables.dfaInitial.toNat < tables.dfaStates.size
  lrInitial : tables.lrInitial.toNat < tables.lrStates.size

variable {tables : Tables}

theorem checkIndex_eq_ok {owner : Owner} {table : Table} {index : UInt16} {size : Nat} :
    checkIndex owner table index size = .ok () ↔ index.toNat < size := by
  rw [checkIndex]
  split
  · next h => exact ⟨fun _ => h, fun _ => rfl⟩
  · next h => exact ⟨nofun, fun hlt => absurd hlt h⟩

theorem checkProduction_eq_ok {production : Production} :
    tables.checkProduction production = .ok () ↔ tables.ProductionInRange production := by
  have hhead : ∀ rest : Except LoadError Unit,
      (if tables.kind? production.head ≠ some .nonterminal then do
          throw (.nonterminalHead production.index production.head)
          rest
        else rest) = .ok () ↔
      tables.kind? production.head = some .nonterminal ∧ rest = .ok () := by
    intro rest
    by_cases h : tables.kind? production.head = some .nonterminal
    · rw [if_neg fun hne => hne h]
      exact ⟨fun hrest => ⟨h, hrest⟩, fun hrest => hrest.2⟩
    · rw [if_pos h]
      exact ⟨nofun, fun hrest => absurd hrest.1 h⟩
  rw [checkProduction, except_bind_eq_ok]
  constructor
  · rintro ⟨⟨⟩, hindex, hrest⟩
    obtain ⟨hkind, hbody⟩ := (hhead _).1 hrest
    rw [forM_eq_ok] at hbody
    exact ⟨checkIndex_eq_ok.1 hindex, hkind, fun symbol h => checkIndex_eq_ok.1 (hbody symbol h)⟩
  · intro h
    refine ⟨(), checkIndex_eq_ok.2 h.head, (hhead _).2 ⟨h.headKind, ?_⟩⟩
    rw [forM_eq_ok]
    exact fun symbol hsymbol => checkIndex_eq_ok.2 (h.body symbol hsymbol)

theorem checkDfaState_eq_ok {index : Nat} {state : DfaState} :
    tables.checkDfaState index state = .ok () ↔ tables.DfaStateInRange state := by
  have hedges : (state.edges.forM fun edge => do
        checkIndex (.dfaState index) .characterSet edge.set tables.characterSets.size
        checkIndex (.dfaState index) .dfaState edge.target tables.dfaStates.size) = .ok () ↔
      ∀ edge ∈ state.edges,
        edge.set.toNat < tables.characterSets.size ∧
          edge.target.toNat < tables.dfaStates.size := by
    rw [forM_eq_ok]
    refine forall₂_congr fun edge _ => ?_
    rw [except_bind_eq_ok, ← checkIndex_eq_ok, ← checkIndex_eq_ok]
    exact ⟨fun ⟨⟨⟩, h⟩ => h, fun h => ⟨(), h⟩⟩
  rw [checkDfaState]
  cases haccept : state.accept with
  | none =>
    constructor
    · exact fun h => ⟨by rw [haccept]; nofun, hedges.1 h⟩
    · exact fun h => hedges.2 h.edges
  | some symbol =>
    rw [except_bind_eq_ok]
    constructor
    · rintro ⟨⟨⟩, hsymbol, h⟩
      refine ⟨?_, hedges.1 h⟩
      intro other hother
      rw [haccept] at hother
      cases hother
      exact checkIndex_eq_ok.1 hsymbol
    · exact fun h => ⟨(), checkIndex_eq_ok.2 (h.accept symbol haccept), hedges.2 h.edges⟩

theorem checkAction_eq_ok {owner : Owner} {action : Action} :
    tables.checkAction owner action = .ok () ↔ tables.ActionInRange action := by
  cases action with
  | shift state => exact checkIndex_eq_ok
  | goto state => exact checkIndex_eq_ok
  | reduce production => exact checkIndex_eq_ok
  | accept => exact ⟨fun _ => trivial, fun _ => rfl⟩
  | error => exact ⟨fun _ => trivial, fun _ => rfl⟩

theorem checkLrState_eq_ok {index : Nat} {state : LrState} :
    tables.checkLrState index state = .ok () ↔ tables.LrStateInRange state := by
  rw [checkLrState, forM_eq_ok, LrStateInRange]
  simp only [Array.mem_toList_iff]
  refine forall₂_congr fun row _ => ?_
  rw [except_bind_eq_ok, ← checkIndex_eq_ok, ← checkAction_eq_ok]
  exact ⟨fun ⟨⟨⟩, h⟩ => h, fun h => ⟨(), h⟩⟩

theorem checkGroup_eq_ok {group : Group} :
    tables.checkGroup group = .ok () ↔ tables.GroupInRange group := by
  rw [checkGroup, except_bind_eq_ok]
  constructor
  · rintro ⟨⟨⟩, hsymbols, hnesting⟩
    rw [forM_eq_ok] at hsymbols hnesting
    simp only [List.forall_mem_cons, checkIndex_eq_ok] at hsymbols
    exact ⟨hsymbols.1, hsymbols.2.1, hsymbols.2.2.1,
      fun nested h => checkIndex_eq_ok.1 (hnesting nested h)⟩
  · intro h
    refine ⟨(), forM_eq_ok.2 ?_, forM_eq_ok.2 fun nested hnested =>
      checkIndex_eq_ok.2 (h.nesting nested hnested)⟩
    simp only [List.forall_mem_cons, checkIndex_eq_ok]
    exact ⟨h.container, h.start, h.finish, fun _ hnone => absurd hnone List.not_mem_nil⟩

/-- A check of all rows with their places checks all rows. -/
theorem forM_zipIdx_eq_ok {α : Type} {f : Nat → α → Except LoadError Unit} {p : α → Prop}
    {rows : Array α} (hf : ∀ index row, f index row = .ok () ↔ p row) :
    (rows.toList.zipIdx.forM fun row => f row.2 row.1) = .ok () ↔ ∀ row ∈ rows, p row := by
  rw [forM_eq_ok]
  constructor
  · intro h row hrow
    obtain ⟨index, hindex, rfl⟩ := Array.getElem_of_mem hrow
    refine (hf index _).1 (h (rows[index], index) ?_)
    rw [List.mk_mem_zipIdx_iff_getElem?, Array.getElem?_toList, Array.getElem?_eq_getElem hindex]
  · intro h row hrow
    exact (hf row.2 row.1).2 (h row.1 (Array.mem_toList_iff.1 (List.fst_mem_of_mem_zipIdx hrow)))

/-- The checks pass if all indices are in range, and only then. -/
theorem check_eq_ok_iff : tables.check = .ok () ↔ tables.InRange := by
  have hdfa : (tables.dfaStates.toList.zipIdx.forM fun row =>
        tables.checkDfaState row.2 row.1) = .ok () ↔
      ∀ state ∈ tables.dfaStates, tables.DfaStateInRange state :=
    forM_zipIdx_eq_ok fun _ _ => checkDfaState_eq_ok
  have hlr : (tables.lrStates.toList.zipIdx.forM fun row =>
        tables.checkLrState row.2 row.1) = .ok () ↔
      ∀ state ∈ tables.lrStates, tables.LrStateInRange state :=
    forM_zipIdx_eq_ok fun _ _ => checkLrState_eq_ok
  rw [check, except_bind_eq_ok]
  constructor
  · rintro ⟨⟨⟩, hproductions, h⟩
    obtain ⟨⟨⟩, hdfaStates, h⟩ := except_bind_eq_ok.1 h
    obtain ⟨⟨⟩, hlrStates, h⟩ := except_bind_eq_ok.1 h
    obtain ⟨⟨⟩, hgroups, h⟩ := except_bind_eq_ok.1 h
    obtain ⟨⟨⟩, hdfaInitial, hlrInitial⟩ := except_bind_eq_ok.1 h
    rw [forM_eq_ok] at hproductions hgroups
    exact {
      productions := fun row h =>
        checkProduction_eq_ok.1 (hproductions row (Array.mem_toList_iff.2 h))
      dfaStates := hdfa.1 hdfaStates
      lrStates := hlr.1 hlrStates
      groups := fun row h => checkGroup_eq_ok.1 (hgroups row (Array.mem_toList_iff.2 h))
      dfaInitial := checkIndex_eq_ok.1 hdfaInitial
      lrInitial := checkIndex_eq_ok.1 hlrInitial }
  · intro h
    refine ⟨(), ?_, except_bind_eq_ok.2 ⟨(), ?_, except_bind_eq_ok.2 ⟨(), ?_,
      except_bind_eq_ok.2 ⟨(), ?_, except_bind_eq_ok.2 ⟨(), ?_, ?_⟩⟩⟩⟩⟩
    · exact forM_eq_ok.2 fun row hrow =>
        checkProduction_eq_ok.2 (h.productions row (Array.mem_toList_iff.1 hrow))
    · exact hdfa.2 h.dfaStates
    · exact hlr.2 h.lrStates
    · exact forM_eq_ok.2 fun row hrow =>
        checkGroup_eq_ok.2 (h.groups row (Array.mem_toList_iff.1 hrow))
    · exact checkIndex_eq_ok.2 h.dfaInitial
    · exact checkIndex_eq_ok.2 h.lrInitial

/-! ## Numbered tables -/

/-- Every row carries its place in its table. -/
theorem renumber_renumber (tables : Tables) : tables.renumber.renumber = tables.renumber := by
  simp only [renumber, Array.mapIdx_mapIdx, Array.map_map]
  rfl

/-- The index of every parser state is in order. -/
theorem indexed_renumber (tables : Tables) : ∀ state ∈ tables.renumber.lrStates, state.Indexed := by
  intro state hstate
  obtain ⟨raw, -, rfl⟩ := Array.mem_map.1 hstate
  exact raw.indexed_reindex

theorem link_renumber (tables : Tables) : tables.renumber.link = tables.link := by
  rw [link, link, renumber_renumber]

/-- The tables are linked if all indices are in range and the two symbols that a lexer needs
    exist. -/
theorem link_eq_ok_iff {grammar : Grammar} :
    tables.link = .ok grammar ↔ tables.renumber.InRange ∧
      ∃ endSymbol errorSymbol,
        tables.renumber.linkGroups.neededSymbol .endOfInput = .ok endSymbol ∧
        tables.renumber.linkGroups.neededSymbol .error = .ok errorSymbol ∧
        grammar = {
          toTables := tables.renumber.linkGroups
          endSymbol
          errorSymbol
          byName := tables.renumber.linkGroups.nameIndex } := by
  rw [link, except_bind_eq_ok, ← check_eq_ok_iff]
  constructor
  · rintro ⟨⟨⟩, hcheck, h⟩
    obtain ⟨endSymbol, hend, h⟩ := except_bind_eq_ok.1 h
    obtain ⟨errorSymbol, herror, h⟩ := except_bind_eq_ok.1 h
    cases h
    exact ⟨hcheck, endSymbol, errorSymbol, hend, herror, rfl⟩
  · rintro ⟨hcheck, endSymbol, errorSymbol, hend, herror, rfl⟩
    exact ⟨(), hcheck, except_bind_eq_ok.2 ⟨endSymbol, hend,
      except_bind_eq_ok.2 ⟨errorSymbol, herror, rfl⟩⟩⟩

/-- Linking does not look at the header. -/
theorem link_header {grammar : Grammar} (header : String) (h : tables.link = .ok grammar) :
    ({ tables with header := header } : Tables).link = .ok { grammar with header := header } := by
  obtain ⟨hrange, endSymbol, errorSymbol, hend, herror, rfl⟩ := link_eq_ok_iff.1 h
  have hcheck := check_eq_ok_iff.2 hrange
  exact link_eq_ok_iff.2 ⟨check_eq_ok_iff.1 hcheck, endSymbol, errorSymbol, hend, herror, rfl⟩

/-! ## Symbols with their groups -/

section Links

variable {β : Type} (f : Symbol → β)

/-- What does not look at the group of a symbol is the same after a link. -/
theorem map_linkSymbol (hf : ∀ symbol group, f { symbol with group := group } = f symbol)
    (symbols : Array Symbol) (index group : UInt16) :
    (linkSymbol symbols index group).map f = symbols.map f := by
  apply Array.ext_getElem?
  intro i
  rw [linkSymbol, Array.getElem?_map, Array.getElem?_map, Array.getElem?_modify]
  split
  · rw [Option.map_map]
    exact congrArg (fun g => symbols[i]?.map g) (funext fun symbol => hf symbol _)
  · rfl

theorem map_linkGroup (hf : ∀ symbol group, f { symbol with group := group } = f symbol)
    (symbols : Array Symbol) (group : Group) :
    (linkGroup symbols group).map f = symbols.map f := by
  rw [linkGroup, List.foldl_cons, List.foldl_cons, List.foldl_cons, List.foldl_nil,
    map_linkSymbol f hf, map_linkSymbol f hf, map_linkSymbol f hf]

/-- What does not look at the groups of the symbols is the same after all links. -/
theorem map_symbols_linkGroups
    (hf : ∀ symbol group, f { symbol with group := group } = f symbol) (tables : Tables) :
    tables.linkGroups.symbols.map f = tables.symbols.map f := by
  rw [linkGroups]
  exact Array.foldl_induction (fun _ (symbols : Array Symbol) =>
    symbols.map f = tables.symbols.map f) rfl fun i symbols ih => by
      rw [map_linkGroup f hf]
      exact ih

theorem map_symbol?_linkGroups
    (hf : ∀ symbol group, f { symbol with group := group } = f symbol) (tables : Tables)
    (index : UInt16) :
    (tables.linkGroups.symbol? index).map f = (tables.symbol? index).map f := by
  rw [symbol?, symbol?, ← Array.getElem?_map, ← Array.getElem?_map, map_symbols_linkGroups f hf]

end Links

theorem size_symbols_linkGroups (tables : Tables) :
    tables.linkGroups.symbols.size = tables.symbols.size := by
  have h := map_symbols_linkGroups (fun _ => ()) (fun _ _ => rfl) tables
  rw [← Array.size_map, h, Array.size_map]

theorem kind?_linkGroups (tables : Tables) (symbol : UInt16) :
    tables.linkGroups.kind? symbol = tables.kind? symbol :=
  map_symbol?_linkGroups Symbol.kind (fun _ _ => rfl) tables symbol

/-- The links between symbols and groups do not change which indices are in range. -/
theorem InRange.linkGroups (h : tables.InRange) : tables.linkGroups.InRange where
  productions production hmem := by
    obtain ⟨hhead, hkind, hbody⟩ := h.productions production hmem
    rw [← size_symbols_linkGroups] at hhead hbody
    exact ⟨hhead, (kind?_linkGroups tables _).trans hkind, hbody⟩
  dfaStates state hmem := by
    obtain ⟨haccept, hedges⟩ := h.dfaStates state hmem
    rw [← size_symbols_linkGroups] at haccept
    exact ⟨haccept, hedges⟩
  lrStates state hmem row hrow := by
    obtain ⟨hsymbol, haction⟩ := h.lrStates state hmem row hrow
    rw [← size_symbols_linkGroups] at hsymbol
    exact ⟨hsymbol, haction⟩
  groups group hmem := by
    obtain ⟨hcontainer, hstart, hfinish, hnesting⟩ := h.groups group hmem
    rw [← size_symbols_linkGroups] at hcontainer hstart hfinish
    exact ⟨hcontainer, hstart, hfinish, hnesting⟩
  dfaInitial := h.dfaInitial
  lrInitial := h.lrInitial

theorem map_index_renumber (tables : Tables) :
    tables.renumber.linkGroups.symbols.map Symbol.index =
      tables.symbols.mapIdx fun i _ => UInt16.ofNat i := by
  rw [map_symbols_linkGroups Symbol.index (fun _ _ => rfl)]
  apply Array.ext_getElem?
  intro i
  rw [Array.getElem?_map, renumber, Array.getElem?_mapIdx, Array.getElem?_mapIdx, Option.map_map]
  rfl

/-- The kinds of the symbols, which neither numbering nor linking touches. -/
theorem map_kind_linkGroups (tables : Tables) :
    tables.renumber.linkGroups.symbols.toList.map Symbol.kind =
      tables.symbols.toList.map Symbol.kind := by
  have hkinds := map_symbols_linkGroups Symbol.kind (fun _ _ => rfl) tables.renumber
  rw [← Array.toList_map, hkinds, ← Array.toList_map]
  apply congrArg Array.toList
  apply Array.ext_getElem?
  intro i
  rw [renumber, Array.getElem?_map, Array.getElem?_mapIdx, Array.getElem?_map, Option.map_map]
  rfl

theorem exists_neededSymbol {kind : SymbolKind}
    (h : kind ∈ tables.symbols.toList.map Symbol.kind) :
    ∃ index, tables.neededSymbol kind = .ok index := by
  obtain ⟨symbol, hsymbol, hkind⟩ := List.mem_map.1 h
  cases hfirst : tables.firstOfKind? kind with
  | none =>
    have hnone := Array.find?_eq_none.1 hfirst symbol (Array.mem_toList_iff.1 hsymbol)
    exact absurd (decide_eq_true hkind) hnone
  | some first => exact ⟨first.index, by rw [neededSymbol, hfirst]⟩

/-- A needed symbol has the kind that was asked for, and its index comes from its place. -/
theorem exists_place_of_neededSymbol {kind : SymbolKind} {index : UInt16}
    (h : tables.renumber.linkGroups.neededSymbol kind = .ok index) :
    ∃ i symbol, i < tables.symbols.size ∧ index = UInt16.ofNat i ∧
      tables.renumber.linkGroups.symbols[i]? = some symbol ∧ symbol.kind = kind := by
  rw [neededSymbol] at h
  split at h
  · next symbol hfirst =>
    cases h
    have hkind := Array.find?_some hfirst
    obtain ⟨i, hi, hsymbol⟩ := Array.getElem_of_mem (Array.mem_of_find?_eq_some hfirst)
    have hget : tables.renumber.linkGroups.symbols[i]? = some symbol := by
      rw [Array.getElem?_eq_getElem hi, hsymbol]
    rw [size_symbols_linkGroups, renumber, Array.size_mapIdx] at hi
    have hindex := congrArg (fun indices : Array UInt16 => indices[i]?) (map_index_renumber tables)
    simp only [Array.getElem?_map, hget, Array.getElem?_mapIdx, Array.getElem?_eq_getElem hi,
      Option.map_some, Option.some.injEq] at hindex
    exact ⟨i, symbol, hi, hindex, hget, of_decide_eq_true hkind⟩
  · cases h

/-- A needed symbol is found at its index, and has the kind that was asked for. -/
theorem kind?_of_neededSymbol {kind : SymbolKind} {index : UInt16}
    (hsize : tables.symbols.size < 65536)
    (h : tables.renumber.linkGroups.neededSymbol kind = .ok index) :
    tables.renumber.linkGroups.kind? index = some kind := by
  obtain ⟨i, symbol, hi, hindex, hget, hkind⟩ := exists_place_of_neededSymbol h
  have hplace : index.toNat = i := by
    rw [hindex]
    exact UInt16.toNat_ofNat_of_lt' (Nat.lt_trans hi hsize)
  rw [kind?, symbol?, hplace, hget]
  exact congrArg some hkind

/-- A needed symbol exists, also where its place does not fit into an index. -/
theorem toNat_lt_of_neededSymbol {kind : SymbolKind} {index : UInt16}
    (h : tables.renumber.linkGroups.neededSymbol kind = .ok index) :
    index.toNat < tables.renumber.linkGroups.symbols.size := by
  obtain ⟨i, _, hi, rfl, -, -⟩ := exists_place_of_neededSymbol h
  rw [size_symbols_linkGroups, renumber, Array.size_mapIdx]
  exact Nat.lt_of_le_of_lt (Nat.mod_le _ _) hi

end Tables

end GoldTables

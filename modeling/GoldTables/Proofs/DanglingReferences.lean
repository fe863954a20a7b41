import GoldTables.Proofs.Linking

/-!
# Which tables are refused

The rows of the tables refer to rows of other tables, and so do the two
initial states. Linking succeeds if and only if all of these references lead
to rows, every production defines a nonterminal, and there are symbols for the
end of the input and for unmatched text. The fault that ends it otherwise is
true of the tables.

Results:
* `inRange_iff`: indices are in range where all references lead to rows.
* `refuses_check`: a fault of the checks is true of the tables.
* `exists_link_iff_intact`: which tables are linked, and what the fault says of all others.
-/

namespace GoldTables

namespace Tables

/-! ## References -/

/-- The number of rows of a table. -/
def rowCount (tables : Tables) : Table → Nat
  | .symbol => tables.symbols.size
  | .characterSet => tables.characterSets.size
  | .production => tables.productions.size
  | .dfaState => tables.dfaStates.size
  | .lrState => tables.lrStates.size
  | .group => tables.groups.size

/-- Who refers to which table, and to which index there. -/
inductive Refers (tables : Tables) : Owner → Table → UInt16 → Prop
  | head {i : Nat} {production : Production} (h : tables.productions[i]? = some production) :
    Refers tables (.production (.ofNat i)) .symbol production.head
  | body {i : Nat} {production : Production} {symbol : UInt16}
    (h : tables.productions[i]? = some production) (hsymbol : symbol ∈ production.body) :
    Refers tables (.production (.ofNat i)) .symbol symbol
  | accept {i : Nat} {state : DfaState} {symbol : UInt16} (h : tables.dfaStates[i]? = some state)
    (hsymbol : state.accept = some symbol) : Refers tables (.dfaState i) .symbol symbol
  | edgeSet {i : Nat} {state : DfaState} {edge : DfaEdge} (h : tables.dfaStates[i]? = some state)
    (hedge : edge ∈ state.edges) : Refers tables (.dfaState i) .characterSet edge.set
  | edgeTarget {i : Nat} {state : DfaState} {edge : DfaEdge}
    (h : tables.dfaStates[i]? = some state) (hedge : edge ∈ state.edges) :
    Refers tables (.dfaState i) .dfaState edge.target
  | actionSymbol {i : Nat} {state : LrState} {row : LrAction}
    (h : tables.lrStates[i]? = some state) (hrow : row ∈ state.actions) :
    Refers tables (.lrState i) .symbol row.symbol
  | shift {i : Nat} {state : LrState} {row : LrAction} {target : UInt16}
    (h : tables.lrStates[i]? = some state) (hrow : row ∈ state.actions)
    (haction : row.action = .shift target) : Refers tables (.lrState i) .lrState target
  | goto {i : Nat} {state : LrState} {row : LrAction} {target : UInt16}
    (h : tables.lrStates[i]? = some state) (hrow : row ∈ state.actions)
    (haction : row.action = .goto target) : Refers tables (.lrState i) .lrState target
  | reduce {i : Nat} {state : LrState} {row : LrAction} {production : UInt16}
    (h : tables.lrStates[i]? = some state) (hrow : row ∈ state.actions)
    (haction : row.action = .reduce production) : Refers tables (.lrState i) .production production
  | container {i : Nat} {group : Group} (h : tables.groups[i]? = some group) :
    Refers tables (.group (.ofNat i)) .symbol group.container
  | start {i : Nat} {group : Group} (h : tables.groups[i]? = some group) :
    Refers tables (.group (.ofNat i)) .symbol group.start
  | finish {i : Nat} {group : Group} (h : tables.groups[i]? = some group) :
    Refers tables (.group (.ofNat i)) .symbol group.finish
  | nested {i : Nat} {group : Group} {nested : UInt16} (h : tables.groups[i]? = some group)
    (hnested : nested ∈ group.nesting) : Refers tables (.group (.ofNat i)) .group nested
  | dfaInitial : Refers tables .initialStates .dfaState tables.dfaInitial
  | lrInitial : Refers tables .initialStates .lrState tables.lrInitial

/-- All references lead to rows, every production defines a nonterminal, and the two symbols that
    every lexer needs exist. -/
structure Intact (tables : Tables) : Prop where
  references : ∀ owner table index, tables.Refers owner table index →
    index.toNat < tables.rowCount table
  heads : ∀ production ∈ tables.productions, tables.kind? production.head = some .nonterminal
  endSymbol : ∃ symbol ∈ tables.symbols, symbol.kind = .endOfInput
  errorSymbol : ∃ symbol ∈ tables.symbols, symbol.kind = .error

/-- A fault of linking that is true of the tables. -/
inductive Explains (tables : Tables) : LoadError → Prop
  /-- A reference leads to no row. -/
  | badReference {owner : Owner} {table : Table} {index : UInt16}
    (h : tables.Refers owner table index) (houtside : tables.rowCount table ≤ index.toNat) :
    Explains tables (.badReference owner table index)
  /-- A production defines a symbol that exists and is not a nonterminal. -/
  | nonterminalHead {i : Nat} {production : Production} {symbol : Symbol}
    (h : tables.productions[i]? = some production)
    (hsymbol : tables.symbol? production.head = some symbol)
    (hkind : symbol.kind ≠ .nonterminal) :
    Explains tables (.nonterminalHead (.ofNat i) production.head)
  /-- No symbol has a kind that is needed. -/
  | missingSymbol {kind : SymbolKind} (hneeded : kind = .endOfInput ∨ kind = .error)
    (h : ∀ symbol ∈ tables.symbols, symbol.kind ≠ kind) : Explains tables (.missingSymbol kind)

variable {tables : Tables}

/-! ## Tables whose references lead to rows -/

/-- Indices are in range where all references lead to rows. -/
theorem inRange_iff : tables.InRange ↔
    (∀ owner table index, tables.Refers owner table index →
      index.toNat < tables.rowCount table) ∧
    ∀ production ∈ tables.productions, tables.kind? production.head = some .nonterminal := by
  constructor
  · intro h
    refine ⟨?_, fun production hmem => (h.productions production hmem).headKind⟩
    intro owner table index hrefers
    cases hrefers with
    | head hrow => exact (h.productions _ (Array.mem_of_getElem? hrow)).head
    | body hrow hsymbol => exact (h.productions _ (Array.mem_of_getElem? hrow)).body _ hsymbol
    | accept hrow hsymbol => exact (h.dfaStates _ (Array.mem_of_getElem? hrow)).accept _ hsymbol
    | edgeSet hrow hedge => exact ((h.dfaStates _ (Array.mem_of_getElem? hrow)).edges _ hedge).1
    | edgeTarget hrow hedge => exact ((h.dfaStates _ (Array.mem_of_getElem? hrow)).edges _ hedge).2
    | actionSymbol hrow haction => exact (h.lrStates _ (Array.mem_of_getElem? hrow) _ haction).1
    | shift hrow hmem haction | goto hrow hmem haction | reduce hrow hmem haction =>
      have hrange := (h.lrStates _ (Array.mem_of_getElem? hrow) _ hmem).2
      rw [haction] at hrange
      exact hrange
    | container hrow => exact (h.groups _ (Array.mem_of_getElem? hrow)).container
    | start hrow => exact (h.groups _ (Array.mem_of_getElem? hrow)).start
    | finish hrow => exact (h.groups _ (Array.mem_of_getElem? hrow)).finish
    | nested hrow hnested => exact (h.groups _ (Array.mem_of_getElem? hrow)).nesting _ hnested
    | dfaInitial => exact h.dfaInitial
    | lrInitial => exact h.lrInitial
  · rintro ⟨hrefers, hheads⟩
    refine ⟨?_, ?_, ?_, ?_, hrefers _ _ _ .dfaInitial, hrefers _ _ _ .lrInitial⟩
    · intro production hmem
      obtain ⟨i, hrow⟩ := Array.mem_iff_getElem?.1 hmem
      exact ⟨hrefers _ _ _ (.head hrow), hheads production hmem,
        fun symbol hsymbol => hrefers _ _ _ (.body hrow hsymbol)⟩
    · intro state hmem
      obtain ⟨i, hrow⟩ := Array.mem_iff_getElem?.1 hmem
      exact ⟨fun symbol hsymbol => hrefers _ _ _ (.accept hrow hsymbol), fun edge hedge =>
        ⟨hrefers _ _ _ (.edgeSet hrow hedge), hrefers _ _ _ (.edgeTarget hrow hedge)⟩⟩
    · intro state hmem row haction
      obtain ⟨i, hrow⟩ := Array.mem_iff_getElem?.1 hmem
      refine ⟨hrefers _ _ _ (.actionSymbol hrow haction), ?_⟩
      cases hkind : row.action with
      | shift target => exact hrefers _ _ _ (.shift hrow haction hkind)
      | goto target => exact hrefers _ _ _ (.goto hrow haction hkind)
      | reduce production => exact hrefers _ _ _ (.reduce hrow haction hkind)
      | accept | error => trivial
    · intro group hmem
      obtain ⟨i, hrow⟩ := Array.mem_iff_getElem?.1 hmem
      exact ⟨hrefers _ _ _ (.container hrow), hrefers _ _ _ (.start hrow),
        hrefers _ _ _ (.finish hrow), fun nested hnested => hrefers _ _ _ (.nested hrow hnested)⟩

/-! ## Numbered tables -/

/-- Tables with as many rows, and with symbols of the same kinds. -/
structure Alike (tables other : Tables) : Prop where
  rowCount : ∀ table, tables.rowCount table = other.rowCount table
  kind? : ∀ symbol, tables.kind? symbol = other.kind? symbol

section Alike

variable {other : Tables}

theorem Alike.symm (h : tables.Alike other) : other.Alike tables :=
  ⟨fun table => (h.rowCount table).symm, fun symbol => (h.kind? symbol).symm⟩

theorem alike_renumber (tables : Tables) : tables.renumber.Alike tables where
  rowCount table := by
    cases table with
    | symbol | production | group => exact Array.size_mapIdx
    | lrState => exact Array.size_map
    | characterSet | dfaState => rfl
  kind? symbol := by
    show ((tables.symbols.mapIdx _)[symbol.toNat]?).map Symbol.kind = _
    rw [Array.getElem?_mapIdx, Option.map_map]
    rfl

/-- An index inside a table is inside the other one. -/
theorem Alike.lt (h : tables.Alike other) (table : Table) {index : UInt16}
    (hlt : index.toNat < tables.rowCount table) : index.toNat < other.rowCount table :=
  Nat.lt_of_lt_of_eq hlt (h.rowCount table)

theorem Alike.production (h : tables.Alike other) {production : Production}
    (hrow : tables.ProductionInRange production) (index : UInt16) :
    other.ProductionInRange { production with index } where
  head := h.lt .symbol hrow.head
  headKind := (h.kind? _).symm.trans hrow.headKind
  body symbol hsymbol := h.lt .symbol (hrow.body symbol hsymbol)

theorem Alike.dfaState (h : tables.Alike other) {state : DfaState}
    (hrow : tables.DfaStateInRange state) : other.DfaStateInRange state where
  accept symbol hsymbol := h.lt .symbol (hrow.accept symbol hsymbol)
  edges edge hedge :=
    ⟨h.lt .characterSet (hrow.edges edge hedge).1,
      h.lt .dfaState (hrow.edges edge hedge).2⟩

theorem Alike.action (h : tables.Alike other) {action : Action}
    (haction : tables.ActionInRange action) : other.ActionInRange action := by
  cases action with
  | shift state | goto state => exact h.lt .lrState haction
  | reduce production => exact h.lt .production haction
  | accept | error => trivial

theorem Alike.lrState (h : tables.Alike other) {state : LrState}
    (hrow : tables.LrStateInRange state) : other.LrStateInRange state :=
  fun row hmem => ⟨h.lt .symbol (hrow row hmem).1, h.action (hrow row hmem).2⟩

theorem Alike.group (h : tables.Alike other) {group : Group} (hrow : tables.GroupInRange group)
    (index : UInt16) : other.GroupInRange { group with index } where
  container := h.lt .symbol hrow.container
  start := h.lt .symbol hrow.start
  finish := h.lt .symbol hrow.finish
  nesting nested hnested := h.lt .group (hrow.nesting nested hnested)

end Alike

/-- What the rows refer to is in range if it is so for the numbered rows, and only then. -/
theorem inRange_renumber (tables : Tables) : tables.renumber.InRange ↔ tables.InRange := by
  have halike := tables.alike_renumber
  constructor
  · intro h
    refine ⟨?_, fun state hmem => halike.dfaState (h.dfaStates state hmem), ?_, ?_,
      halike.lt .dfaState h.dfaInitial, halike.lt .lrState h.lrInitial⟩
    · intro production hmem
      obtain ⟨i, hi, rfl⟩ := Array.getElem_of_mem hmem
      exact halike.production (h.productions _ (Array.mem_mapIdx.2 ⟨i, hi, rfl⟩)) _
    · intro state hmem
      have hreindex := h.lrStates state.reindex (Array.mem_map.2 ⟨state, hmem, rfl⟩)
      exact halike.lrState hreindex
    · intro group hmem
      obtain ⟨i, hi, rfl⟩ := Array.getElem_of_mem hmem
      exact halike.group (h.groups _ (Array.mem_mapIdx.2 ⟨i, hi, rfl⟩)) _
  · intro h
    refine ⟨?_, fun state hmem => halike.symm.dfaState (h.dfaStates state hmem), ?_, ?_,
      halike.symm.lt .dfaState h.dfaInitial,
      halike.symm.lt .lrState h.lrInitial⟩
    · intro production hmem
      obtain ⟨i, hi, rfl⟩ := Array.mem_mapIdx.1 hmem
      exact halike.symm.production (h.productions _ (Array.getElem_mem hi)) _
    · intro state hmem
      obtain ⟨raw, hraw, rfl⟩ := Array.mem_map.1 hmem
      exact halike.symm.lrState (h.lrStates raw hraw)
    · intro group hmem
      obtain ⟨i, hi, rfl⟩ := Array.mem_mapIdx.1 hmem
      exact halike.symm.group (h.groups _ (Array.getElem_mem hi)) _

/-! ## Faults of the checks -/

/-- Every fault of a step is true of the tables. -/
def Refuses (tables : Tables) {α : Type} (step : Except LoadError α) : Prop :=
  ∀ fault, step = .error fault → tables.Explains fault

section Refuses

variable {α β : Type}

theorem Refuses.ok (value : α) : tables.Refuses (.ok value) := nofun

theorem Refuses.bind {step : Except LoadError α} {next : α → Except LoadError β}
    (h : tables.Refuses step) (hnext : ∀ value, step = .ok value → tables.Refuses (next value)) :
    tables.Refuses (step >>= next) := by
  cases hstep : step with
  | error fault =>
    rintro _ ⟨⟩
    exact h fault hstep
  | ok value => exact hnext value hstep

theorem Refuses.forM {f : α → Except LoadError Unit} {items : List α}
    (h : ∀ item ∈ items, tables.Refuses (f item)) : tables.Refuses (items.forM f) := by
  induction items with
  | nil => exact .ok ()
  | cons item items ih =>
    obtain ⟨hitem, hitems⟩ := List.forall_mem_cons.1 h
    exact hitem.bind fun _ _ => ih hitems

/-- The check of an index refuses a reference that leads to no row. -/
theorem Refers.refuses {owner : Owner} {table : Table} {index : UInt16} {size : Nat}
    (h : tables.Refers owner table index) (hsize : size = tables.rowCount table) :
    tables.Refuses (checkIndex owner table index size) := by
  intro fault hfault
  rw [checkIndex] at hfault
  split at hfault
  · cases hfault
  · next houtside =>
    cases hfault
    exact .badReference h (by omega)

end Refuses

theorem refuses_checkProduction {i : Nat} {production : Production}
    (h : tables.productions[i]? = some production) :
    tables.Refuses (tables.renumber.checkProduction { production with index := .ofNat i }) := by
  have halike := tables.alike_renumber
  refine (Refers.refuses (.head h) (halike.rowCount .symbol)).bind fun _ hhead => ?_
  have hlt := halike.lt .symbol (checkIndex_eq_ok.1 hhead)
  split
  · next hkind =>
    rintro _ ⟨⟩
    obtain ⟨symbol, hsymbol⟩ : ∃ symbol, tables.symbol? production.head = some symbol :=
      ⟨_, Array.getElem?_eq_getElem hlt⟩
    have hexplains : tables.Explains (.nonterminalHead (.ofNat i) production.head) := by
      refine .nonterminalHead h hsymbol fun hnonterminal => hkind ?_
      rw [halike.kind?, kind?, hsymbol, Option.map_some, hnonterminal]
    exact hexplains
  · exact .forM fun symbol hsymbol => (Refers.body h hsymbol).refuses (halike.rowCount .symbol)

theorem refuses_checkDfaState {i : Nat} {state : DfaState}
    (h : tables.dfaStates[i]? = some state) :
    tables.Refuses (tables.renumber.checkDfaState i state) := by
  have halike := tables.alike_renumber
  have hedges : tables.Refuses (state.edges.forM fun edge => do
      checkIndex (.dfaState i) .characterSet edge.set tables.renumber.characterSets.size
      checkIndex (.dfaState i) .dfaState edge.target tables.renumber.dfaStates.size) :=
    .forM fun edge hedge => ((Refers.edgeSet h hedge).refuses rfl).bind fun _ _ =>
      (Refers.edgeTarget h hedge).refuses rfl
  rw [checkDfaState]
  cases haccept : state.accept with
  | none => exact hedges
  | some symbol =>
    exact ((Refers.accept h haccept).refuses (halike.rowCount .symbol)).bind fun _ _ => hedges

theorem refuses_checkAction {i : Nat} {state : LrState} {row : LrAction}
    (h : tables.lrStates[i]? = some state) (hrow : row ∈ state.actions) :
    tables.Refuses (tables.renumber.checkAction (.lrState i) row.action) := by
  have halike := tables.alike_renumber
  cases haction : row.action with
  | shift target => exact (Refers.shift h hrow haction).refuses (halike.rowCount .lrState)
  | goto target => exact (Refers.goto h hrow haction).refuses (halike.rowCount .lrState)
  | reduce production =>
    exact (Refers.reduce h hrow haction).refuses (halike.rowCount .production)
  | accept | error => exact .ok ()

theorem refuses_checkLrState {i : Nat} {state : LrState} (h : tables.lrStates[i]? = some state) :
    tables.Refuses (tables.renumber.checkLrState i state.reindex) := by
  refine .forM fun row hrow => ?_
  have hmem : row ∈ state.actions := Array.mem_toList_iff.1 hrow
  exact ((Refers.actionSymbol h hmem).refuses (tables.alike_renumber.rowCount .symbol)).bind
    fun _ _ => refuses_checkAction h hmem

theorem refuses_checkGroup {i : Nat} {group : Group} (h : tables.groups[i]? = some group) :
    tables.Refuses (tables.renumber.checkGroup { group with index := .ofNat i }) := by
  have halike := tables.alike_renumber
  refine Refuses.bind (.forM fun symbol hsymbol => ?_) fun _ _ => .forM fun nested hnested =>
    (Refers.nested h hnested).refuses (halike.rowCount .group)
  have hrefers : tables.Refers (.group (.ofNat i)) .symbol symbol := by
    simp only [List.mem_cons, List.not_mem_nil, or_false] at hsymbol
    rcases hsymbol with rfl | rfl | rfl
    · exact .container h
    · exact .start h
    · exact .finish h
  exact hrefers.refuses (halike.rowCount .symbol)

/-- A fault of the checks is true of the tables. -/
theorem refuses_check (tables : Tables) : tables.Refuses tables.renumber.check := by
  have halike := tables.alike_renumber
  refine Refuses.bind (.forM ?_) fun _ _ => Refuses.bind (.forM ?_) fun _ _ =>
    Refuses.bind (.forM ?_) fun _ _ => Refuses.bind (.forM ?_) fun _ _ =>
      Refuses.bind (Refers.dfaInitial.refuses rfl) fun _ _ =>
        Refers.lrInitial.refuses (halike.rowCount .lrState)
  · intro production hmem
    obtain ⟨i, hi, rfl⟩ := Array.mem_mapIdx.1 (Array.mem_toList_iff.1 hmem)
    exact refuses_checkProduction (Array.getElem?_eq_getElem hi)
  · rintro ⟨state, i⟩ hmem
    have hrow := List.mk_mem_zipIdx_iff_getElem?.1 hmem
    rw [Array.getElem?_toList] at hrow
    exact refuses_checkDfaState hrow
  · rintro ⟨state, i⟩ hmem
    have hrow := List.mk_mem_zipIdx_iff_getElem?.1 hmem
    rw [Array.getElem?_toList] at hrow
    obtain ⟨raw, hraw, rfl⟩ := Option.map_eq_some_iff.1 (Array.getElem?_map.symm.trans hrow)
    exact refuses_checkLrState hraw
  · intro group hmem
    obtain ⟨i, hi, rfl⟩ := Array.mem_mapIdx.1 (Array.mem_toList_iff.1 hmem)
    exact refuses_checkGroup (Array.getElem?_eq_getElem hi)

/-! ## Linked and refused tables -/

/-- Numbering and linking leave the symbols that are looked for. -/
theorem mem_kinds_linkGroups {kind : SymbolKind} :
    kind ∈ tables.renumber.linkGroups.symbols.toList.map Symbol.kind ↔
      ∃ symbol ∈ tables.symbols, symbol.kind = kind := by
  rw [map_kind_linkGroups, List.mem_map]
  simp only [Array.mem_toList_iff]

theorem exists_neededSymbol_iff {kind : SymbolKind} :
    (∃ index, tables.renumber.linkGroups.neededSymbol kind = .ok index) ↔
      ∃ symbol ∈ tables.symbols, symbol.kind = kind := by
  rw [← mem_kinds_linkGroups]
  constructor
  · rintro ⟨index, h⟩
    obtain ⟨i, symbol, -, -, hsymbol, rfl⟩ := exists_place_of_neededSymbol h
    exact List.mem_map_of_mem (Array.mem_toList_iff.2 (Array.mem_of_getElem? hsymbol))
  · exact exists_neededSymbol

theorem refuses_neededSymbol {kind : SymbolKind} (hneeded : kind = .endOfInput ∨ kind = .error) :
    tables.Refuses (tables.renumber.linkGroups.neededSymbol kind) := by
  intro fault hfault
  have hnone : ¬∃ symbol ∈ tables.symbols, symbol.kind = kind := by
    rw [← exists_neededSymbol_iff, hfault]
    nofun
  rw [neededSymbol] at hfault
  split at hfault
  · cases hfault
  · cases hfault
    exact .missingSymbol hneeded fun symbol hsymbol hkind => hnone ⟨symbol, hsymbol, hkind⟩

/-- Tables are linked if they are intact, and only then. The fault that ends it otherwise names a
    reference that leads to no row, a production that defines no nonterminal, or a kind of symbol
    that is needed and missing. -/
theorem exists_link_iff_intact (tables : Tables) :
    ((∃ grammar, tables.link = .ok grammar) ↔ tables.Intact) ∧
      ∀ fault, tables.link = .error fault → tables.Explains fault := by
  constructor
  · constructor
    · rintro ⟨grammar, hlink⟩
      obtain ⟨hrange, endSymbol, errorSymbol, hend, herror, -⟩ := link_eq_ok_iff.1 hlink
      obtain ⟨hreferences, hheads⟩ := inRange_iff.1 (tables.inRange_renumber.1 hrange)
      exact ⟨hreferences, hheads, exists_neededSymbol_iff.1 ⟨endSymbol, hend⟩,
        exists_neededSymbol_iff.1 ⟨errorSymbol, herror⟩⟩
    · rintro ⟨hreferences, hheads, hend, herror⟩
      have hrange := tables.inRange_renumber.2 (inRange_iff.2 ⟨hreferences, hheads⟩)
      obtain ⟨endSymbol, hend⟩ := exists_neededSymbol_iff.2 hend
      obtain ⟨errorSymbol, herror⟩ := exists_neededSymbol_iff.2 herror
      exact ⟨_, link_eq_ok_iff.2 ⟨hrange, endSymbol, errorSymbol, hend, herror, rfl⟩⟩
  · show tables.Refuses tables.link
    exact tables.refuses_check.bind fun _ _ => (refuses_neededSymbol (.inl rfl)).bind fun _ _ =>
      (refuses_neededSymbol (.inr rfl)).bind fun _ _ => .ok _

/-- Tables whose second group may hold one that does not exist. -/
def danglingTables : Tables where
  header := formatHeader
  properties := .empty
  symbols := #[⟨0, "EOF", .endOfInput, none⟩, ⟨0, "Error", .error, none⟩]
  characterSets := #[]
  productions := #[]
  dfaStates := #[⟨none, []⟩]
  lrStates := #[.empty]
  groups := #[⟨0, "Comment", 1, 1, 1, .token, .closed, [1, 0]⟩,
    ⟨0, "Line", 1, 1, 1, .token, .openEnded, [0, 2]⟩]
  dfaInitial := 0
  lrInitial := 0

theorem exists_link_iff_intact_danglingTables :
    danglingTables.link = .error (.badReference (.group 1) .group 2) ∧
      danglingTables.Explains (.badReference (.group 1) .group 2) := by
  have hcheck : danglingTables.renumber.check = .error (.badReference (.group 1) .group 2) := by
    with_unfolding_all rfl
  have hlink : danglingTables.link = .error (.badReference (.group 1) .group 2) := by
    rw [link, hcheck]
    rfl
  exact ⟨hlink, (exists_link_iff_intact danglingTables).2 _ hlink⟩

end Tables

end GoldTables

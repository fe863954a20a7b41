import GoldTables.Proofs.JsonRoundTrip
import Mathlib.Data.List.Induction

/-!
# What linking computes

Linking numbers the rows, looks up the two symbols that a lexer needs and the
first symbol of each name, and tells each symbol the last group that names it.
All of these are places that are kept as 16-bit indices. So they are the places
themselves in tables of up to 65536 rows, and the places modulo 65536 in tables
of a document that are larger than that.

Results:
* `Tables.getElem?_nameIndex`: the index of the names leads to the first symbol of each.
* `Tables.group_linkGroups`: of several groups of a symbol the last one stays.
* `Grammar.derived_of_link`: what linking computes, for tables of any sizes.
* `Grammar.Derived.agrees_iff`: it is what the tables say if they have up to 65536 rows.
* `Grammar.agrees_iff_of_load`: what holds of the grammars that were read from files and documents.
-/

namespace GoldTables

/-! ## Groups of symbols -/

/-- Whether a group names the symbol at a place as its container, start or end. -/
def Group.names (place : Nat) (group : Group) : Bool :=
  [group.container, group.start, group.finish].any fun symbol => symbol.toNat = place

namespace Tables

variable {tables : Tables}

/-- The place of the last group that names the symbol at a place. -/
def lastGroup? (tables : Tables) (place : Nat) : Option Nat :=
  ((tables.groups.toList.zipIdx.filter fun row => row.1.names place).getLast?).map Prod.snd

section Links

variable (symbols : Array Symbol) (place : Nat)

/-- The group of the symbol at a place, if there is a symbol. -/
def groupAt : Option (Option UInt16) := (symbols[place]?).map Symbol.group

theorem groupAt_linkSymbol (index group : UInt16) :
    groupAt (linkSymbol symbols index group) place =
      (groupAt symbols place).map fun known =>
        if index.toNat = place then some group else known := by
  unfold groupAt linkSymbol
  rw [Array.getElem?_modify, Option.map_map]
  by_cases h : index.toNat = place
  · simp [h, Function.comp_def]
  · simp [h, Function.comp_def]

theorem groupAt_linkGroup (group : Group) :
    groupAt (linkGroup symbols group) place =
      (groupAt symbols place).map fun known =>
        if group.names place then some group.index else known := by
  simp only [linkGroup, List.foldl_cons, List.foldl_nil, groupAt_linkSymbol, Option.map_map]
  apply congrArg fun f => (groupAt symbols place).map f
  funext known
  simp only [Function.comp_apply, Group.names, List.any_cons, List.any_nil, Bool.or_false,
    Bool.or_eq_true, decide_eq_true_eq]
  split_ifs <;> simp_all

/-- Of several groups of a symbol the last one stays. -/
theorem groupAt_foldl (groups : List Group) :
    groupAt (groups.foldl linkGroup symbols) place =
      (groupAt symbols place).map fun known =>
        ((groups.filter (·.names place)).getLast?.map Group.index).or known := by
  induction groups using List.reverseRecOn with
  | nil => simp
  | append_singleton groups group ih =>
    rw [List.foldl_append, List.foldl_cons, List.foldl_nil, groupAt_linkGroup, ih, Option.map_map,
      List.filter_append]
    by_cases h : group.names place
    · simp [h, Function.comp_def]
    · simp [h, Function.comp_def]

end Links

/-- Every symbol is told the last group that names it. -/
theorem groupAt_linkGroups {place : Nat} (h : place < tables.symbols.size) :
    groupAt tables.renumber.linkGroups.symbols place =
      some ((tables.renumber.linkGroups.lastGroup? place).map UInt16.ofNat) := by
  have hnone : groupAt tables.renumber.symbols place = some none := by
    simp [groupAt, renumber, h]
  have hindex : ∀ row ∈ tables.renumber.groups.toList.zipIdx,
      row.1.index = UInt16.ofNat row.2 := by
    intro row hrow
    have hget := List.mk_mem_zipIdx_iff_getElem?.1 hrow
    rw [Array.getElem?_toList, renumber, Array.getElem?_mapIdx] at hget
    obtain ⟨group, -, hgroup⟩ := Option.map_eq_some_iff.1 hget
    rw [← hgroup]
  have hfilter : tables.renumber.groups.toList.filter (·.names place) =
      (tables.renumber.groups.toList.zipIdx.filter fun row => row.1.names place).map Prod.fst := by
    have hmap := List.filter_map (p := (Group.names place)) (f := Prod.fst)
      (l := tables.renumber.groups.toList.zipIdx)
    rwa [List.zipIdx_map_fst] at hmap
  show groupAt (tables.renumber.groups.foldl linkGroup tables.renumber.symbols) place = _
  rw [← Array.foldl_toList, groupAt_foldl, hnone, Option.map_some, Option.or_none, hfilter,
    List.getLast?_map, Option.map_map]
  show _ = some ((((tables.renumber.groups.toList.zipIdx.filter
    fun row => row.1.names place).getLast?).map Prod.snd).map UInt16.ofNat)
  rw [Option.map_map]
  apply congrArg some
  apply Option.map_congr
  intro row hrow
  exact hindex row ((List.mem_filter.1 (List.mem_of_getLast? hrow)).1)

/-! ## Names and needed symbols -/

theorem getElem?_foldl_insertIfNew (symbols : List Symbol) (names : Std.TreeMap String UInt16)
    (name : String) :
    (symbols.foldl (fun names symbol => names.insertIfNew symbol.name symbol.index) names)[name]? =
      (names[name]?).or ((symbols.find? fun symbol => symbol.name = name).map Symbol.index) := by
  induction symbols generalizing names with
  | nil => simp
  | cons symbol symbols ih =>
    rw [List.foldl_cons, ih, Std.TreeMap.getElem?_insertIfNew, List.find?_cons]
    simp only [Std.LawfulEqCmp.compare_eq_iff_eq]
    by_cases h : symbol.name = name
    · subst h
      by_cases hmem : symbol.name ∈ names
      · simp [hmem]
      · simp [hmem]
    · simp [h]

/-- The index of the names leads to the first symbol of each. -/
theorem getElem?_nameIndex (tables : Tables) (name : String) :
    tables.nameIndex[name]? =
      (tables.symbols.toList.find? fun symbol => symbol.name = name).map Symbol.index := by
  rw [nameIndex, ← Array.foldl_toList, getElem?_foldl_insertIfNew]
  simp

/-- The place of the first symbol with a property. -/
def place? (tables : Tables) (p : Symbol → Bool) : Option Nat := tables.symbols.toList.findIdx? p

theorem index_of_getElem? {place : Nat} {symbol : Symbol}
    (h : tables.renumber.linkGroups.symbols[place]? = some symbol) :
    symbol.index = UInt16.ofNat place := by
  have hindex := congrArg (fun indices : Array UInt16 => indices[place]?)
    (map_index_renumber tables)
  simp only [Array.getElem?_map, h, Array.getElem?_mapIdx, Option.map_some] at hindex
  obtain ⟨_, -, hindex⟩ := Option.map_eq_some_iff.1 hindex.symm
  exact hindex.symm

/-- What is looked up of the first symbol with a property is its numbered place. -/
theorem map_index_find? (tables : Tables) (p : Symbol → Bool) :
    (tables.renumber.linkGroups.symbols.toList.find? p).map Symbol.index =
      (tables.renumber.linkGroups.place? p).map UInt16.ofNat := by
  rw [List.find?_eq_bind_findIdx?_getElem?, place?, Option.map_bind]
  cases hplace : tables.renumber.linkGroups.symbols.toList.findIdx? p with
  | none => rfl
  | some place =>
    obtain ⟨hlt, -⟩ := List.findIdx?_eq_some_iff_getElem.1 hplace
    rw [Option.bind_some]
    show ((tables.renumber.linkGroups.symbols.toList[place]?).map Symbol.index) = _
    rw [List.getElem?_eq_getElem hlt]
    have hget : tables.renumber.linkGroups.symbols[place]? =
        some tables.renumber.linkGroups.symbols.toList[place] := by
      rw [← Array.getElem?_toList, List.getElem?_eq_getElem hlt]
    exact congrArg some (index_of_getElem? hget)

/-- A needed symbol is the first one of its kind. -/
theorem place?_of_neededSymbol {kind : SymbolKind} {index : UInt16}
    (h : tables.renumber.linkGroups.neededSymbol kind = .ok index) :
    (tables.renumber.linkGroups.place? fun symbol => symbol.kind = kind).map UInt16.ofNat =
      some index := by
  rw [← map_index_find?, Array.find?_toList]
  rw [neededSymbol] at h
  split at h
  · next symbol hfirst =>
    cases h
    exact congrArg (Option.map Symbol.index) hfirst
  · cases h

end Tables

/-! ## Grammars of any size -/

/-- Every row carries its place as far as a 16-bit index can tell it. -/
def Numbered {α : Type} (rows : Array α) (index : α → UInt16) : Prop :=
  ∀ (place : Nat) (row : α), rows[place]? = some row → index row = UInt16.ofNat place

/-- Every row carries its place. -/
def Placed {α : Type} (rows : Array α) (index : α → UInt16) : Prop :=
  ∀ (place : Nat) (row : α), rows[place]? = some row → (index row).toNat = place

section Rows

variable {α : Type} {rows : Array α} {index : α → UInt16}

theorem numbered_mapIdx {f : Nat → α → α} (hf : ∀ place row, index (f place row) = .ofNat place) :
    Numbered (rows.mapIdx f) index := by
  intro place row hrow
  rw [Array.getElem?_mapIdx] at hrow
  obtain ⟨origin, -, rfl⟩ := Option.map_eq_some_iff.1 hrow
  exact hf place origin

theorem toNat_ofNat_of_lt_size {place : Nat} (hsize : rows.size ≤ 65536) (h : place < rows.size) :
    (UInt16.ofNat place).toNat = place :=
  UInt16.toNat_ofNat_of_lt' (Nat.lt_of_lt_of_le h hsize)

/-- Numbers tell the places of the rows if there is a number for every row, and only then. -/
theorem Numbered.placed_iff (h : Numbered rows index) : Placed rows index ↔ rows.size ≤ 65536 := by
  constructor
  · intro hplaced
    apply Nat.le_of_not_lt
    intro hlt
    have hlast := hplaced 65536 _ (Array.getElem?_eq_getElem hlt)
    have hbound := (index rows[65536]).toNat_lt
    omega
  · intro hsize place row hrow
    rw [h place row hrow]
    exact toNat_ofNat_of_lt_size hsize (Array.getElem?_eq_some_iff.1 hrow).1

end Rows

namespace Grammar

/-- What linking computes: rows are numbered, and the first symbols of a kind or a name and the
    last groups are kept by their numbers. -/
structure Derived (grammar : Grammar) : Prop where
  symbols : Numbered grammar.symbols Symbol.index
  productions : Numbered grammar.productions Production.index
  groups : Numbered grammar.groups Group.index
  endSymbol : (grammar.place? fun symbol => symbol.kind = .endOfInput).map UInt16.ofNat =
    some grammar.endSymbol
  errorSymbol : (grammar.place? fun symbol => symbol.kind = .error).map UInt16.ofNat =
    some grammar.errorSymbol
  names : ∀ name, grammar.byName[name]? =
    (grammar.place? fun symbol => symbol.name = name).map UInt16.ofNat
  groupOf : ∀ (place : Nat) (symbol : Symbol), grammar.symbols[place]? = some symbol →
    symbol.group = (grammar.lastGroup? place).map UInt16.ofNat

/-- What linking computes agrees with the tables: rows carry their places, the two needed symbols
    are the first ones of their kinds, a name leads to the first symbol of that name, and the group
    of a symbol is the last one that names it. -/
structure Agrees (grammar : Grammar) : Prop where
  symbols : Placed grammar.symbols Symbol.index
  productions : Placed grammar.productions Production.index
  groups : Placed grammar.groups Group.index
  endSymbol : (grammar.place? fun symbol => symbol.kind = .endOfInput) =
    some grammar.endSymbol.toNat
  errorSymbol : (grammar.place? fun symbol => symbol.kind = .error) =
    some grammar.errorSymbol.toNat
  symbolByName : ∀ name, grammar.symbolByName? name =
    grammar.symbols.find? fun symbol => symbol.name = name
  groupOf : ∀ (place : Nat) (symbol : Symbol), grammar.symbols[place]? = some symbol →
    symbol.group.map UInt16.toNat = grammar.lastGroup? place

/-- There is a number for every row that carries one. -/
structure Numberable (grammar : Grammar) : Prop where
  symbols : grammar.symbols.size ≤ 65536
  productions : grammar.productions.size ≤ 65536
  groups : grammar.groups.size ≤ 65536

variable {tables : Tables} {grammar : Grammar}

theorem derived_of_link (h : tables.link = .ok grammar) : grammar.Derived := by
  obtain ⟨-, endSymbol, errorSymbol, hend, herror, rfl⟩ := Tables.link_eq_ok_iff.1 h
  exact {
    symbols := fun place symbol hsymbol => Tables.index_of_getElem? hsymbol
    productions := numbered_mapIdx fun _ _ => rfl
    groups := numbered_mapIdx fun _ _ => rfl
    endSymbol := Tables.place?_of_neededSymbol hend
    errorSymbol := Tables.place?_of_neededSymbol herror
    names := fun name => by rw [Tables.getElem?_nameIndex, Tables.map_index_find?]
    groupOf := by
      intro place symbol hsymbol
      have hlt : place < tables.symbols.size := by
        have hsize := (Array.getElem?_eq_some_iff.1 hsymbol).1
        rwa [Tables.size_symbols_linkGroups, Tables.renumber, Array.size_mapIdx] at hsize
      have hgroup := Tables.groupAt_linkGroups hlt
      rw [Tables.groupAt, hsymbol] at hgroup
      exact Option.some.inj hgroup }

/-- The places of symbols and groups are told by their numbers. -/
theorem Numberable.toNat_place? (h : grammar.Numberable) {p : Symbol → Bool} {place : Nat}
    (hplace : grammar.place? p = some place) : (UInt16.ofNat place).toNat = place := by
  obtain ⟨hlt, -⟩ := List.findIdx?_eq_some_iff_getElem.1 hplace
  exact toNat_ofNat_of_lt_size h.symbols hlt

theorem Numberable.toNat_lastGroup? (h : grammar.Numberable) {place group : Nat}
    (hgroup : grammar.lastGroup? place = some group) : (UInt16.ofNat group).toNat = group := by
  obtain ⟨row, hrow, rfl⟩ := Option.map_eq_some_iff.1 hgroup
  have hmem := (List.mem_filter.1 (List.mem_of_getLast? hrow)).1
  have hlt := (List.mem_zipIdx hmem).2.1
  exact toNat_ofNat_of_lt_size h.groups (by simpa using hlt)

/-- What linking computes agrees with the tables as long as there are numbers enough. -/
theorem Derived.agrees_iff (h : grammar.Derived) : grammar.Agrees ↔ grammar.Numberable := by
  constructor
  · intro hagrees
    exact ⟨h.symbols.placed_iff.1 hagrees.symbols, h.productions.placed_iff.1 hagrees.productions,
      h.groups.placed_iff.1 hagrees.groups⟩
  · intro hsize
    -- a place that is kept by its number is found again
    have hback : ∀ {place? : Option Nat},
        (∀ place, place? = some place → (UInt16.ofNat place).toNat = place) →
        (place?.map UInt16.ofNat).map UInt16.toNat = place? := by
      intro place? hplaces
      rw [Option.map_map]
      cases place? with
      | none => rfl
      | some place => exact congrArg some (hplaces place rfl)
    have hneeded : ∀ {p : Symbol → Bool} {index : UInt16},
        (grammar.place? p).map UInt16.ofNat = some index →
        grammar.place? p = some index.toNat := by
      intro p index hindex
      rw [← hback fun _ => hsize.toNat_place?, hindex, Option.map_some]
    exact {
      symbols := h.symbols.placed_iff.2 hsize.symbols
      productions := h.productions.placed_iff.2 hsize.productions
      groups := h.groups.placed_iff.2 hsize.groups
      endSymbol := hneeded h.endSymbol
      errorSymbol := hneeded h.errorSymbol
      symbolByName := by
        intro name
        rw [symbolByName?, h.names, ← Array.find?_toList, List.find?_eq_bind_findIdx?_getElem?]
        show _ = (grammar.place? _).bind _
        rw [Option.bind_map]
        apply Option.bind_congr
        intro place hplace
        show grammar.symbols[(UInt16.ofNat place).toNat]? = _
        rw [hsize.toNat_place? hplace, Array.getElem?_toList]
      groupOf := by
        intro place symbol hsymbol
        rw [h.groupOf place symbol hsymbol, hback fun _ => hsize.toNat_lastGroup?] }

/-- The tables of a file have a number for every row. -/
theorem numberable_of_fits (hfits : tables.Fits) (h : tables.link = .ok grammar) :
    grammar.Numberable := by
  have hsymbols := hfits.symbols.1
  have hproductions := hfits.productions.1
  have hgroups := hfits.groups.1
  obtain ⟨-, _, _, -, -, rfl⟩ := Tables.link_eq_ok_iff.1 h
  constructor
  · rw [Tables.size_symbols_linkGroups]
    simpa [Tables.renumber] using Nat.le_of_lt hsymbols
  · simpa [Tables.linkGroups, Tables.renumber] using Nat.le_of_lt hproductions
  · simpa [Tables.linkGroups, Tables.renumber] using Nat.le_of_lt hgroups

theorem agrees_of_ofBytes {bytes : List UInt8} (h : ofBytes bytes = .ok grammar) :
    grammar.Agrees := by
  obtain ⟨tables, hfits, hlink⟩ := ofBytes_eq_ok h
  exact (derived_of_link hlink).agrees_iff.2 (numberable_of_fits hfits hlink)

/-- What linking computes for a grammar that was read, and when it agrees with the tables: for
    every file, and for the documents without a table of more than 65536 numbered rows. -/
theorem derived_of_load
    (h : (∃ bytes, ofBytes bytes = .ok grammar) ∨ ∃ document, ofDocument document = .ok grammar) :
    grammar.Derived ∧ (grammar.Agrees ↔ grammar.Numberable) ∧
      ((∃ bytes, ofBytes bytes = .ok grammar) → grammar.Agrees) := by
  have hderived : grammar.Derived := by
    rcases h with ⟨bytes, hbytes⟩ | ⟨document, hdocument⟩
    · obtain ⟨tables, -, hlink⟩ := ofBytes_eq_ok hbytes
      exact derived_of_link hlink
    · obtain ⟨tables, -, hlink⟩ := ofDocument_eq_ok hdocument
      exact derived_of_link hlink
  refine ⟨hderived, hderived.agrees_iff, ?_⟩
  rintro ⟨bytes, hbytes⟩
  obtain ⟨tables, hfits, hlink⟩ := ofBytes_eq_ok hbytes
  exact hderived.agrees_iff.2 (numberable_of_fits hfits hlink)

end Grammar

/-! ## More symbols than numbers -/

/-- Tables of symbols that nobody refers to, with the two that a lexer needs behind them. -/
def noiseTables (more : Nat) : Tables where
  header := formatHeader
  properties := .empty
  symbols := Array.replicate more ⟨0, "", .noise, none⟩ ++
    #[⟨0, "", .endOfInput, none⟩, ⟨0, "", .error, none⟩]
  characterSets := #[]
  productions := #[]
  dfaStates := #[⟨none, []⟩]
  lrStates := #[.empty]
  groups := #[]
  dfaInitial := 0
  lrInitial := 0

theorem inRange_noiseTables (more : Nat) : (noiseTables more).renumber.InRange where
  productions _ hrow := absurd hrow (by simp [noiseTables, Tables.renumber])
  dfaStates state hstate := by
    obtain rfl : state = ⟨none, []⟩ := by simpa [noiseTables, Tables.renumber] using hstate
    exact ⟨fun _ haccept => absurd haccept (by simp), fun _ hedge => absurd hedge (by simp)⟩
  lrStates state hstate := by
    obtain rfl : state = LrState.empty.reindex := by
      simpa [noiseTables, Tables.renumber] using hstate
    exact fun _ hrow => absurd hrow (by simp [LrState.empty, LrState.reindex])
  groups _ hrow := absurd hrow (by simp [noiseTables, Tables.renumber])
  dfaInitial := show 0 < 1 by omega
  lrInitial := by simp [noiseTables, Tables.renumber]

theorem map_kind_noiseTables (more : Nat) :
    (noiseTables more).symbols.toList.map Symbol.kind =
      List.replicate more .noise ++ [.endOfInput, .error] := by
  simp [noiseTables]

theorem exists_link_noiseTables {more : Nat} (h : 0 < more) :
    ∃ grammar, (noiseTables more).link = .ok grammar ∧ grammar.symbols.size = more + 2 ∧
      (grammar.place? fun symbol => symbol.kind = .endOfInput) = some more ∧
      grammar.kind? 0 = some .noise := by
  have hkinds := (noiseTables more).map_kind_linkGroups.trans (map_kind_noiseTables more)
  obtain ⟨endSymbol, hend⟩ : ∃ index,
      (noiseTables more).renumber.linkGroups.neededSymbol .endOfInput = .ok index :=
    Tables.exists_neededSymbol (by simp [hkinds])
  obtain ⟨errorSymbol, herror⟩ : ∃ index,
      (noiseTables more).renumber.linkGroups.neededSymbol .error = .ok index :=
    Tables.exists_neededSymbol (by simp [hkinds])
  refine ⟨_, Tables.link_eq_ok_iff.2 ⟨inRange_noiseTables more, endSymbol, errorSymbol, hend,
    herror, rfl⟩, ?_, ?_, ?_⟩
  · simpa using congrArg List.length hkinds
  · have hplace := congrArg (List.findIdx? fun kind => kind = .endOfInput) hkinds
    rw [List.findIdx?_map] at hplace
    apply hplace.trans
    simp [List.findIdx?_append, List.findIdx?_cons]
  · show (((noiseTables more).renumber.linkGroups.symbols)[0]?).map Symbol.kind = _
    rw [← Array.getElem?_toList, ← List.getElem?_map, hkinds,
      List.getElem?_append_left (by simpa using h), List.getElem?_replicate, if_pos h]

/-- With 65536 symbols in front of it, the end of the input has the number of the first of them. -/
theorem Grammar.derived_of_load_noiseTables :
    ∃ document grammar, ofDocument document = .ok grammar ∧ grammar.Derived ∧ ¬grammar.Agrees ∧
      grammar.endSymbol = 0 ∧ grammar.kind? 0 = some .noise := by
  obtain ⟨grammar, hlink, hsize, hplace, hfirst⟩ :=
    exists_link_noiseTables (show 0 < 65536 by omega)
  have hload : ofDocument (Text.toUtf8 grammar.toDocument) = .ok grammar :=
    ofDocument_toDocument_of_link hlink
  obtain ⟨hderived, hagrees, -⟩ := derived_of_load (Or.inr ⟨_, hload⟩)
  refine ⟨_, grammar, hload, hderived, ?_, ?_, hfirst⟩
  · rw [hagrees]
    intro hnumberable
    have hle := hnumberable.symbols
    omega
  · have hnumber := hderived.endSymbol
    rw [hplace] at hnumber
    exact (Option.some.inj hnumber).symm

end GoldTables

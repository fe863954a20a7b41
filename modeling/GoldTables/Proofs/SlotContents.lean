import GoldTables.Proofs.DraftFilling

/-!
# What the slots of a draft hold

A record fills one of the properties, the initial states, or a row of a table.
Whatever is filled again holds its last content, so that a draft depends on
its records address by address, and the order of records with different
addresses does not matter. The one exception is the record of table sizes,
which has to come before the rows.

Results:
* `Draft.content?_add`: a record changes what is held at its address, and nothing else.
* `Draft.content?_foldlM`: what is held at an address is what the last record put there.
* `Draft.ext_content`: drafts of the same sizes that hold the same are the same.
* `foldlM_countsFirst`: which records are entered, if the sizes of the tables come before the rows.
* `foldlM_perm`: the order of records with different addresses does not matter.
-/

namespace GoldTables

/-! ## Addresses -/

/-- What a record can fill. -/
inductive Address where
  | property (index : Fin 8)
  | initialStates
  | row (table : Table) (index : UInt16)
  deriving DecidableEq

/-- What can be held at an address. -/
inductive Content where
  | text (value : String)
  | states (dfa lr : UInt16)
  | symbol (row : Symbol)
  | characterSet (row : CharacterSet)
  | production (row : Production)
  | dfaState (row : DfaState)
  | lrState (row : LrState)
  | group (row : Group)

/-- What a record puts where. A property that does not exist is dropped, and the sizes of the
    tables are no content. -/
def TableRecord.filling? : TableRecord → Option (Address × Content)
  | .property index value =>
    if h : index.toNat < 8 then some (.property ⟨index.toNat, h⟩, .text value) else none
  | .tableCounts _ => none
  | .initialStates dfa lr => some (.initialStates, .states dfa lr)
  | .symbol index row => some (.row .symbol index, .symbol row)
  | .characterSet index _ row => some (.row .characterSet index, .characterSet row)
  | .production index row => some (.row .production index, .production row)
  | .dfaState index row => some (.row .dfaState index, .dfaState row)
  | .lrState index row => some (.row .lrState index, .lrState row)
  | .group index row => some (.row .group index, .group row)

/-- What the last of some fillings puts at an address. -/
def lastAt (fillings : List (Address × Content)) (address : Address) : Option Content :=
  (fillings.filter fun filling => filling.1 = address).getLast?.map Prod.snd

theorem lastAt_nil (address : Address) : lastAt [] address = none := rfl

theorem lastAt_append (first second : List (Address × Content)) (address : Address) :
    lastAt (first ++ second) address = (lastAt second address).or (lastAt first address) := by
  rw [lastAt, List.filter_append, List.getLast?_append, lastAt, lastAt]
  cases (second.filter fun filling => filling.1 = address).getLast? <;> rfl

theorem lastAt_self (address : Address) (content : Content) :
    lastAt [(address, content)] address = some content := by
  simp [lastAt]

theorem lastAt_of_ne {address other : Address} (content : Content) (h : other ≠ address) :
    lastAt [(other, content)] address = none := by
  simp [lastAt, h]

theorem mem_of_lastAt {fillings : List (Address × Content)} {address : Address} {content : Content}
    (h : lastAt fillings address = some content) : (address, content) ∈ fillings := by
  obtain ⟨⟨other, _⟩, hlast, rfl⟩ := Option.map_eq_some_iff.1 h
  obtain ⟨hmem, haddress⟩ := List.mem_filter.1 (List.mem_of_getLast? hlast)
  obtain rfl : other = address := by simpa using haddress
  exact hmem

theorem lastAt_eq_none {fillings : List (Address × Content)} {address : Address}
    (h : ∀ filling ∈ fillings, filling.1 ≠ address) : lastAt fillings address = none := by
  cases hlast : lastAt fillings address with
  | none => rfl
  | some content => exact absurd rfl (h _ (mem_of_lastAt hlast))

/-! ## Contents of slots -/

/-- The declared size of a table. -/
def TableCounts.size (counts : TableCounts) : Table → Nat
  | .symbol => counts.symbols.toNat
  | .characterSet => counts.characterSets.toNat
  | .production => counts.productions.toNat
  | .dfaState => counts.dfaStates.toNat
  | .lrState => counts.lrStates.toNat
  | .group => counts.groups.toNat

theorem TableCounts.size_lt (counts : TableCounts) (table : Table) : counts.size table < 65536 := by
  cases table <;> exact UInt16.toNat_lt _

namespace Slots

/-- The size of a table. -/
def size (slots : Slots) : Table → Nat
  | .symbol => slots.symbols.size
  | .characterSet => slots.characterSets.size
  | .production => slots.productions.size
  | .dfaState => slots.dfaStates.size
  | .lrState => slots.lrStates.size
  | .group => slots.groups.size

/-- What a row of a table holds. -/
def content? (slots : Slots) : Table → UInt16 → Option Content
  | .symbol, index => slots.symbols[index.toNat]?.join.map .symbol
  | .characterSet, index => slots.characterSets[index.toNat]?.join.map .characterSet
  | .production, index => slots.productions[index.toNat]?.join.map .production
  | .dfaState, index => slots.dfaStates[index.toNat]?.join.map .dfaState
  | .lrState, index => slots.lrStates[index.toNat]?.join.map .lrState
  | .group, index => slots.groups[index.toNat]?.join.map .group

theorem size_ofCounts (counts : TableCounts) (table : Table) :
    (ofCounts counts).size table = counts.size table := by
  cases table <;> exact Array.size_replicate

theorem content?_ofCounts (counts : TableCounts) (table : Table) (index : UInt16) :
    (ofCounts counts).content? table index = none := by
  have hnone : ∀ {α : Type} (size : Nat) (hold : α → Content),
      (Array.replicate size (none : Option α))[index.toNat]?.join.map hold = none := by
    intro α size hold
    rw [Array.getElem?_replicate]
    split <;> rfl
  cases table <;> exact hnone _ _

end Slots

/-- A column is one of the tables, and its rows are held as they are. -/
structure Column.Holds {α : Type} (column : Column α) (hold : α → Content) : Prop where
  injective : Function.Injective hold
  filling : ∀ index row,
    (column.record index row).filling? = some (.row column.table index, hold row)
  size_self : ∀ slots, slots.size column.table = (column.rows slots).size
  size_put : ∀ slots filled table, table ≠ column.table →
    (column.put slots filled).size table = slots.size table
  content_self : ∀ slots index,
    slots.content? column.table index = (column.rows slots)[index.toNat]?.join.map hold
  content_put : ∀ slots filled table index, table ≠ column.table →
    (column.put slots filled).content? table index = slots.content? table index

namespace Column

theorem symbols_holds : symbols.Holds .symbol where
  injective _ _ h := Content.symbol.inj h
  filling _ _ := rfl
  size_self _ := rfl
  size_put _ _ table h := by cases table with | symbol => exact absurd rfl h | _ => rfl
  content_self _ _ := rfl
  content_put _ _ table _ h := by cases table with | symbol => exact absurd rfl h | _ => rfl

theorem characterSets_holds : characterSets.Holds .characterSet where
  injective _ _ h := Content.characterSet.inj h
  filling _ _ := rfl
  size_self _ := rfl
  size_put _ _ table h := by cases table with | characterSet => exact absurd rfl h | _ => rfl
  content_self _ _ := rfl
  content_put _ _ table _ h := by cases table with | characterSet => exact absurd rfl h | _ => rfl

theorem productions_holds : productions.Holds .production where
  injective _ _ h := Content.production.inj h
  filling _ _ := rfl
  size_self _ := rfl
  size_put _ _ table h := by cases table with | production => exact absurd rfl h | _ => rfl
  content_self _ _ := rfl
  content_put _ _ table _ h := by cases table with | production => exact absurd rfl h | _ => rfl

theorem dfaStates_holds : dfaStates.Holds .dfaState where
  injective _ _ h := Content.dfaState.inj h
  filling _ _ := rfl
  size_self _ := rfl
  size_put _ _ table h := by cases table with | dfaState => exact absurd rfl h | _ => rfl
  content_self _ _ := rfl
  content_put _ _ table _ h := by cases table with | dfaState => exact absurd rfl h | _ => rfl

theorem lrStates_holds : lrStates.Holds .lrState where
  injective _ _ h := Content.lrState.inj h
  filling _ _ := rfl
  size_self _ := rfl
  size_put _ _ table h := by cases table with | lrState => exact absurd rfl h | _ => rfl
  content_self _ _ := rfl
  content_put _ _ table _ h := by cases table with | lrState => exact absurd rfl h | _ => rfl

theorem groups_holds : groups.Holds .group where
  injective _ _ h := Content.group.inj h
  filling _ _ := rfl
  size_self _ := rfl
  size_put _ _ table h := by cases table with | group => exact absurd rfl h | _ => rfl
  content_self _ _ := rfl
  content_put _ _ table _ h := by cases table with | group => exact absurd rfl h | _ => rfl

variable {α : Type} {column : Column α} {hold : α → Content} {slots other : Slots}

/-- A row that is filled holds its content, and all other rows hold what they held. -/
theorem Holds.content?_put (h : column.Holds hold) {index : UInt16} {row : α}
    {filled : Array (Option α)}
    (hfill : fillSlot column.table (column.rows slots) index row = .ok filled) (table : Table)
    (place : UInt16) :
    (column.put slots filled).content? table place =
      if table = column.table ∧ place = index then some (hold row)
      else slots.content? table place := by
  rw [fillSlot] at hfill
  split at hfill
  · next hlt =>
    cases hfill
    by_cases htable : table = column.table
    · subst htable
      rw [h.content_self, h.content_self, column.rows_put, Array.getElem?_setIfInBounds]
      by_cases hplace : place = index
      · rw [hplace, if_pos rfl, if_pos hlt, if_pos ⟨rfl, rfl⟩]
        rfl
      · have hne : index.toNat ≠ place.toNat := fun h => hplace (UInt16.toNat.inj h).symm
        rw [if_neg hne, if_neg fun h => hplace h.2]
    · rw [h.content_put _ _ _ _ htable, if_neg fun h => htable h.1]
  · cases hfill

/-- Filling a row keeps all sizes. -/
theorem Holds.size_fill (h : column.Holds hold) {index : UInt16} {row : α}
    {filled : Array (Option α)}
    (hfill : fillSlot column.table (column.rows slots) index row = .ok filled) (table : Table) :
    (column.put slots filled).size table = slots.size table := by
  rw [fillSlot] at hfill
  split at hfill
  · cases hfill
    by_cases htable : table = column.table
    · subst htable
      rw [h.size_self, h.size_self, column.rows_put, Array.size_setIfInBounds]
    · exact h.size_put _ _ _ htable
  · cases hfill

/-- Tables of one size whose rows hold the same are the same. -/
theorem Holds.rows_eq (h : column.Holds hold) (hlt : (column.rows slots).size < 65536)
    (hsize : slots.size column.table = other.size column.table)
    (hcontent : ∀ index,
      slots.content? column.table index = other.content? column.table index) :
    column.rows slots = column.rows other := by
  rw [h.size_self, h.size_self] at hsize
  apply Array.ext hsize
  intro i hi hother
  have hindex : (UInt16.ofNat i).toNat = i := UInt16.toNat_ofNat_of_lt' (Nat.lt_trans hi hlt)
  have hrow := hcontent (UInt16.ofNat i)
  rw [h.content_self, h.content_self, hindex, Array.getElem?_eq_getElem hi,
    Array.getElem?_eq_getElem hother] at hrow
  exact Option.map_injective h.injective hrow

end Column

/-- Slots of the same sizes that hold the same are the same. -/
theorem Slots.ext_content {slots other : Slots} (hlt : ∀ table, slots.size table < 65536)
    (hsize : ∀ table, slots.size table = other.size table)
    (hcontent : ∀ table index, slots.content? table index = other.content? table index) :
    slots = other := by
  have hsymbols : slots.symbols = other.symbols :=
    Column.symbols_holds.rows_eq (hlt .symbol) (hsize _) (hcontent _)
  have hcharacterSets : slots.characterSets = other.characterSets :=
    Column.characterSets_holds.rows_eq (hlt .characterSet) (hsize _) (hcontent _)
  have hproductions : slots.productions = other.productions :=
    Column.productions_holds.rows_eq (hlt .production) (hsize _) (hcontent _)
  have hdfaStates : slots.dfaStates = other.dfaStates :=
    Column.dfaStates_holds.rows_eq (hlt .dfaState) (hsize _) (hcontent _)
  have hlrStates : slots.lrStates = other.lrStates :=
    Column.lrStates_holds.rows_eq (hlt .lrState) (hsize _) (hcontent _)
  have hgroups : slots.groups = other.groups :=
    Column.groups_holds.rows_eq (hlt .group) (hsize _) (hcontent _)
  cases slots
  cases other
  cases hsymbols
  cases hcharacterSets
  cases hproductions
  cases hdfaStates
  cases hlrStates
  cases hgroups
  rfl

/-- A record of a row is a record of a column. -/
theorem TableRecord.exists_column {record : TableRecord} {table : Table} {index : UInt16}
    {content : Content} (h : record.filling? = some (.row table index, content)) :
    ∃ (α : Type) (column : Column α) (hold : α → Content) (row : α), column.Holds hold ∧
      column.table = table ∧ hold row = content ∧
        ∀ draft : Draft, draft.add record = draft.add (column.record index row) := by
  cases record with
  | property place value =>
    rw [filling?] at h
    split at h <;> cases h
  | tableCounts counts => cases h
  | initialStates dfa lr => cases h
  | symbol place row =>
    cases h
    exact ⟨_, .symbols, _, row, Column.symbols_holds, rfl, rfl, fun _ => rfl⟩
  | characterSet place declared row =>
    cases h
    exact ⟨_, .characterSets, _, row, Column.characterSets_holds, rfl, rfl, fun _ => rfl⟩
  | production place row =>
    cases h
    exact ⟨_, .productions, _, row, Column.productions_holds, rfl, rfl, fun _ => rfl⟩
  | dfaState place row =>
    cases h
    exact ⟨_, .dfaStates, _, row, Column.dfaStates_holds, rfl, rfl, fun _ => rfl⟩
  | lrState place row =>
    cases h
    exact ⟨_, .lrStates, _, row, Column.lrStates_holds, rfl, rfl, fun _ => rfl⟩
  | group place row =>
    cases h
    exact ⟨_, .groups, _, row, Column.groups_holds, rfl, rfl, fun _ => rfl⟩

/-! ## Contents of drafts -/

/-- The value of a property. -/
def Properties.value (properties : Properties) (index : Fin 8) : String := properties.values[index]

namespace Draft

/-- What a draft holds at an address. -/
def content? (draft : Draft) : Address → Option Content
  | .property index => some (.text (draft.properties.value index))
  | .initialStates => some (.states draft.dfaInitial draft.lrInitial)
  | .row table index => draft.slots.bind fun slots => slots.content? table index

/-- The size of a table in a draft, if it is known. -/
def size? (draft : Draft) (table : Table) : Option Nat :=
  draft.slots.map fun slots => slots.size table

variable {draft next other : Draft} {record : TableRecord} {records : List TableRecord}

/-- A draft has a place for what a record fills. -/
def Accepts (draft : Draft) (record : TableRecord) : Prop :=
  ∀ table index content, record.filling? = some (.row table index, content) →
    ∃ size, draft.size? table = some size ∧ index.toNat < size

/-- What entering a row does to a draft. -/
theorem add_row {table : Table} {index : UInt16} {content : Content}
    (hrow : record.filling? = some (.row table index, content)) (h : draft.add record = .ok next) :
    draft.Accepts record ∧ (∀ table, next.size? table = draft.size? table) ∧
      ∀ address, next.content? address =
        (lastAt [(.row table index, content)] address).or (draft.content? address) := by
  obtain ⟨α, column, hold, row, hholds, rfl, rfl, hadd⟩ := TableRecord.exists_column hrow
  rw [hadd] at h
  obtain ⟨slots, filled, hslots, hfill, rfl⟩ := column.add_ok h
  refine ⟨?_, ?_, ?_⟩
  · intro table place content hsame
    rw [hrow] at hsame
    cases hsame
    refine ⟨slots.size column.table, by rw [size?, hslots, Option.map_some], ?_⟩
    rw [fillSlot] at hfill
    split at hfill
    · next hlt =>
      rw [hholds.size_self]
      exact hlt
    · cases hfill
  · intro table
    rw [size?, size?, hslots, Option.map_some, Option.map_some, hholds.size_fill hfill]
  · intro address
    have hput := hholds.content?_put hfill
    cases address with
    | property place => rw [lastAt_of_ne _ (by simp), Option.none_or]; rfl
    | initialStates => rw [lastAt_of_ne _ (by simp), Option.none_or]; rfl
    | row table place =>
      have hnext : content? { draft with slots := some (column.put slots filled) }
          (.row table place) = (column.put slots filled).content? table place := rfl
      have hdraft : draft.content? (.row table place) = slots.content? table place := by
        rw [content?, hslots, Option.bind_some]
      rw [hnext, hdraft, hput]
      by_cases hsame : table = column.table ∧ place = index
      · rw [if_pos hsame, hsame.1, hsame.2, lastAt_self, Option.some_or]
      · rw [if_neg hsame, lastAt_of_ne, Option.none_or]
        intro heq
        cases heq
        exact hsame ⟨rfl, rfl⟩

/-- A row is entered if there is a place for it. -/
theorem exists_add_row {table : Table} {index : UInt16} {content : Content}
    (hrow : record.filling? = some (.row table index, content)) (haccepts : draft.Accepts record) :
    ∃ next, draft.add record = .ok next := by
  obtain ⟨α, column, hold, row, hholds, rfl, rfl, hadd⟩ := TableRecord.exists_column hrow
  obtain ⟨size, hsize, hlt⟩ := haccepts _ _ _ hrow
  obtain ⟨slots, hslots, rfl⟩ := Option.map_eq_some_iff.1 hsize
  rw [hholds.size_self] at hlt
  rw [hadd, column.add_of_slots hslots, fillSlot, if_pos hlt]
  exact ⟨_, rfl⟩

/-- A property holds the value that it was set to, and all others hold what they held. -/
theorem content?_set (properties : Properties) {slots : Option Slots} {dfa lr index : UInt16}
    (h : index.toNat < 8) (value : String) (address : Address) :
    content? ⟨properties.set index value, slots, dfa, lr⟩ address =
      (lastAt [(.property ⟨index.toNat, h⟩, .text value)] address).or
        (content? ⟨properties, slots, dfa, lr⟩ address) := by
  cases address with
  | property place =>
    have hget : content? ⟨properties.set index value, slots, dfa, lr⟩ (.property place) =
        some (.text (properties.values.set index.toNat value h)[place]) := by
      rw [content?, Properties.set, dif_pos h, Properties.value]
    rw [hget, Fin.getElem_fin, Vector.getElem_set]
    by_cases hplace : index.toNat = place
    · obtain rfl : (⟨index.toNat, h⟩ : Fin 8) = place := Fin.ext hplace
      rw [if_pos rfl, lastAt_self, Option.some_or]
    · rw [if_neg hplace, lastAt_of_ne, Option.none_or]
      · rfl
      · intro heq
        cases heq
        exact hplace rfl
  | initialStates => rw [lastAt_of_ne _ (by simp), Option.none_or]; rfl
  | row table place => rw [lastAt_of_ne _ (by simp), Option.none_or]; rfl

/-- A record changes what is held at its address, and nothing else. -/
theorem content?_add (h : draft.add record = .ok next)
    (hcounts : record.isTableCounts = true → draft.slots = none) (address : Address) :
    next.content? address =
      (lastAt record.filling?.toList address).or (draft.content? address) := by
  cases record with
  | property index value =>
    cases h
    by_cases hindex : index.toNat < 8
    · rw [TableRecord.filling?, dif_pos hindex]
      exact content?_set draft.properties hindex value address
    · rw [TableRecord.filling?, dif_neg hindex, Properties.set, dif_neg hindex]
      rfl
  | tableCounts counts =>
    cases h
    show _ = draft.content? address
    cases address with
    | property place => rfl
    | initialStates => rfl
    | row table place =>
      have hnone : draft.content? (.row table place) = none := by
        rw [content?, hcounts rfl, Option.bind_none]
      rw [hnone]
      exact Slots.content?_ofCounts counts table place
  | initialStates dfa lr =>
    cases h
    cases address with
    | initialStates => rfl
    | property place => rw [TableRecord.filling?, Option.toList_some, lastAt_of_ne _ (by simp)]; rfl
    | row table place =>
      rw [TableRecord.filling?, Option.toList_some, lastAt_of_ne _ (by simp)]
      rfl
  | _ => exact (add_row rfl h).2.2 address

/-- A record that is entered had a place, and leaves all sizes as they are. -/
theorem accepts_add (h : draft.add record = .ok next) (hcounts : record.isTableCounts = false) :
    draft.Accepts record ∧ ∀ table, next.size? table = draft.size? table := by
  cases record with
  | property index value =>
    cases h
    refine ⟨?_, fun _ => rfl⟩
    intro table place content hrow
    rw [TableRecord.filling?] at hrow
    split at hrow <;> cases hrow
  | tableCounts counts => cases hcounts
  | initialStates dfa lr =>
    cases h
    refine ⟨?_, fun _ => rfl⟩
    intro table place content hrow
    cases hrow
  | _ => exact ⟨(add_row rfl h).1, (add_row rfl h).2.1⟩

/-- A record is entered if there is a place for it. -/
theorem exists_add (haccepts : draft.Accepts record) : ∃ next, draft.add record = .ok next := by
  cases record with
  | property index value => exact ⟨_, rfl⟩
  | tableCounts counts => exact ⟨_, rfl⟩
  | initialStates dfa lr => exact ⟨_, rfl⟩
  | _ => exact exists_add_row rfl haccepts

theorem Accepts.of_size? (haccepts : draft.Accepts record)
    (hsize : ∀ table, next.size? table = draft.size? table) : next.Accepts record := by
  intro table index content hrow
  rw [hsize]
  exact haccepts table index content hrow

/-! ## Runs -/

/-- What is held at an address is what the last record put there. -/
theorem content?_foldlM (h : records.foldlM add draft = .ok next)
    (hcounts : ∀ record ∈ records, record.isTableCounts = false) (address : Address) :
    next.content? address =
      (lastAt (records.filterMap TableRecord.filling?) address).or (draft.content? address) := by
  induction records generalizing draft with
  | nil =>
    cases h
    rfl
  | cons record records ih =>
    obtain ⟨hrecord, hrecords⟩ := List.forall_mem_cons.1 hcounts
    rw [List.foldlM_cons] at h
    obtain ⟨middle, hadd, hfold⟩ := except_bind_eq_ok.1 h
    have hfilterMap : (record :: records).filterMap TableRecord.filling? =
        record.filling?.toList ++ records.filterMap TableRecord.filling? := by
      rw [List.filterMap_cons]
      cases record.filling? <;> rfl
    have hnone : record.isTableCounts = true → draft.slots = none := by
      rw [hrecord]
      intro habsurd
      cases habsurd
    rw [hfilterMap, lastAt_append, Option.or_assoc, ih hfold hrecords, content?_add hadd hnone]

/-- Records are entered one after the other if there is a place for each. -/
theorem exists_foldlM_iff (hcounts : ∀ record ∈ records, record.isTableCounts = false) :
    (∃ next, records.foldlM add draft = .ok next) ↔ ∀ record ∈ records, draft.Accepts record := by
  induction records generalizing draft with
  | nil => simp [pure, Except.pure]
  | cons record records ih =>
    obtain ⟨hrecord, hrecords⟩ := List.forall_mem_cons.1 hcounts
    rw [List.forall_mem_cons]
    constructor
    · rintro ⟨next, h⟩
      rw [List.foldlM_cons] at h
      obtain ⟨middle, hadd, hfold⟩ := except_bind_eq_ok.1 h
      obtain ⟨haccepts, hsize⟩ := accepts_add hadd hrecord
      refine ⟨haccepts, fun other hother => ?_⟩
      exact ((ih hrecords).1 ⟨next, hfold⟩ other hother).of_size? fun table => (hsize table).symm
    · rintro ⟨haccepts, hothers⟩
      obtain ⟨middle, hadd⟩ := exists_add haccepts
      obtain ⟨-, hsize⟩ := accepts_add hadd hrecord
      obtain ⟨next, hfold⟩ :=
        (ih hrecords).2 fun other hother => (hothers other hother).of_size? hsize
      exact ⟨next, by rw [List.foldlM_cons, hadd]; exact hfold⟩

theorem size?_foldlM (h : records.foldlM add draft = .ok next)
    (hcounts : ∀ record ∈ records, record.isTableCounts = false) (table : Table) :
    next.size? table = draft.size? table := by
  induction records generalizing draft with
  | nil =>
    cases h
    rfl
  | cons record records ih =>
    obtain ⟨hrecord, hrecords⟩ := List.forall_mem_cons.1 hcounts
    rw [List.foldlM_cons] at h
    obtain ⟨middle, hadd, hfold⟩ := except_bind_eq_ok.1 h
    rw [ih hfold hrecords, (accepts_add hadd hrecord).2]

/-! ## Drafts that hold the same -/

/-- Drafts of the same sizes that hold the same are the same. -/
theorem ext_content {counts : TableCounts}
    (hsize : ∀ table, draft.size? table = some (counts.size table))
    (hother : ∀ table, other.size? table = some (counts.size table))
    (hcontent : ∀ address, draft.content? address = other.content? address) : draft = other := by
  obtain ⟨properties, slots, dfa, lr⟩ := draft
  obtain ⟨properties', slots', dfa', lr'⟩ := other
  obtain ⟨slots, rfl, -⟩ := Option.map_eq_some_iff.1 (hsize .symbol)
  obtain ⟨slots', rfl, -⟩ := Option.map_eq_some_iff.1 (hother .symbol)
  have hslots : slots = slots' := by
    have hsizes : ∀ table, slots.size table = counts.size table :=
      fun table => Option.some.inj (hsize table)
    have hsizes' : ∀ table, slots'.size table = counts.size table :=
      fun table => Option.some.inj (hother table)
    apply Slots.ext_content
    · intro table
      rw [hsizes]
      exact counts.size_lt table
    · intro table
      rw [hsizes, hsizes']
    · intro table index
      exact hcontent (.row table index)
  have hproperties : properties = properties' := by
    obtain ⟨values⟩ := properties
    obtain ⟨values'⟩ := properties'
    congr 1
    apply Vector.ext
    intro i hi
    exact Content.text.inj (Option.some.inj (hcontent (.property ⟨i, hi⟩)))
  have hstates := Content.states.inj (Option.some.inj (hcontent .initialStates))
  obtain ⟨rfl, rfl⟩ := hstates
  rw [hslots, hproperties]

end Draft

/-! ## Records behind the sizes of the tables -/

/-- Whether a record describes a row of a table. -/
def TableRecord.isRow : TableRecord → Bool
  | .property _ _ | .tableCounts _ | .initialStates _ _ => false
  | _ => true

/-- A row that a record describes is below the size of its table. -/
def TableRecord.InRange (counts : TableCounts) (record : TableRecord) : Prop :=
  ∀ table index content, record.filling? = some (.row table index, content) →
    index.toNat < counts.size table

/-- One record holds the sizes of the tables, and it comes before all rows. -/
def CountsFirst (records : List TableRecord) : Prop :=
  ∃ front counts behind, records = front ++ .tableCounts counts :: behind ∧
    (∀ record ∈ front ++ behind, record.isTableCounts = false) ∧
      ∀ record ∈ front, record.isRow = false

theorem TableRecord.filling?_of_isRow {record : TableRecord} (h : record.isRow = false)
    {table : Table} {index : UInt16} {content : Content} :
    record.filling? ≠ some (.row table index, content) := by
  cases record with
  | property place value =>
    rw [filling?]
    split <;> simp
  | tableCounts counts => simp [filling?]
  | initialStates dfa lr => simp [filling?]
  | _ => cases h

section Runs

variable {front behind records permuted : List TableRecord} {counts : TableCounts} {draft : Draft}

/-- The sizes of the tables open the slots for what comes behind them. -/
theorem foldlM_tableCounts (hfront : ∀ record ∈ front, record.isRow = false)
    (hcounts : ∀ record ∈ front ++ behind, record.isTableCounts = false) :
    ∃ opened : Draft, (∀ table, opened.size? table = some (counts.size table)) ∧
      (∀ address, opened.content? address =
        (lastAt (front.filterMap TableRecord.filling?) address).or
          (Draft.empty.content? address)) ∧
      (front ++ .tableCounts counts :: behind).foldlM Draft.add Draft.empty =
        behind.foldlM Draft.add opened := by
  obtain ⟨hfrontcounts, -⟩ := List.forall_mem_append.1 hcounts
  obtain ⟨start, hstart⟩ : ∃ start, front.foldlM Draft.add Draft.empty = .ok start :=
    (Draft.exists_foldlM_iff hfrontcounts).2 fun record hrecord _ _ _ hrow =>
      absurd hrow (TableRecord.filling?_of_isRow (hfront record hrecord))
  have hadd : start.add (.tableCounts counts) =
      .ok { start with slots := some (Slots.ofCounts counts) } := rfl
  have hnone : start.slots = none := by
    have hsize := Draft.size?_foldlM hstart hfrontcounts .symbol
    exact Option.map_eq_none_iff.1 hsize
  refine ⟨{ start with slots := some (Slots.ofCounts counts) }, ?_, ?_, ?_⟩
  · intro table
    rw [Draft.size?, Option.map_some, Slots.size_ofCounts]
  · intro address
    rw [Draft.content?_add hadd (fun _ => hnone), Draft.content?_foldlM hstart hfrontcounts]
    rfl
  · rw [List.foldlM_append, hstart]
    rfl

theorem Draft.accepts_iff_inRange {record : TableRecord}
    (h : ∀ table, draft.size? table = some (counts.size table)) :
    draft.Accepts record ↔ record.InRange counts := by
  refine forall_congr' fun table => forall_congr' fun index => forall_congr' fun content =>
    forall_congr' fun _ => ?_
  rw [h]
  simp

/-- Records with the sizes of the tables in front of the rows are entered if all rows are below
    these sizes. The draft then has these sizes, and holds what the last records put there. -/
theorem foldlM_countsFirst (hrecords : records = front ++ .tableCounts counts :: behind)
    (hcounts : ∀ record ∈ front ++ behind, record.isTableCounts = false)
    (hfront : ∀ record ∈ front, record.isRow = false) :
    ((∃ draft, records.foldlM Draft.add Draft.empty = .ok draft) ↔
        ∀ record ∈ records, record.InRange counts) ∧
      ∀ draft, records.foldlM Draft.add Draft.empty = .ok draft →
        (∀ table, draft.size? table = some (counts.size table)) ∧
        ∀ address, draft.content? address =
          (lastAt (records.filterMap TableRecord.filling?) address).or
            (Draft.empty.content? address) := by
  subst hrecords
  obtain ⟨-, hbehind⟩ := List.forall_mem_append.1 hcounts
  obtain ⟨opened, hsize, hcontent, hfold⟩ := foldlM_tableCounts hfront hcounts
  rw [hfold]
  refine ⟨?_, ?_⟩
  · rw [Draft.exists_foldlM_iff hbehind, List.forall_mem_append, List.forall_mem_cons]
    constructor
    · intro h
      refine ⟨fun record hrecord _ _ _ hrow => ?_, fun _ _ _ hrow => ?_, fun record hrecord => ?_⟩
      · exact absurd hrow (TableRecord.filling?_of_isRow (hfront record hrecord))
      · cases hrow
      · exact (Draft.accepts_iff_inRange hsize).1 (h record hrecord)
    · rintro ⟨-, -, h⟩ record hrecord
      exact (Draft.accepts_iff_inRange hsize).2 (h record hrecord)
  · intro draft h
    refine ⟨fun table => ?_, fun address => ?_⟩
    · rw [Draft.size?_foldlM h hbehind, hsize]
    · rw [Draft.content?_foldlM h hbehind, hcontent, List.filterMap_append, lastAt_append,
        Option.or_assoc]
      rfl

/-- The order of records does not matter, as long as those with one address keep theirs. -/
theorem foldlM_perm (hperm : permuted.Perm records) (hrecords : CountsFirst records)
    (hpermuted : CountsFirst permuted)
    (horder : ∀ address, lastAt (permuted.filterMap TableRecord.filling?) address =
      lastAt (records.filterMap TableRecord.filling?) address)
    (h : records.foldlM Draft.add Draft.empty = .ok draft) :
    permuted.foldlM Draft.add Draft.empty = .ok draft := by
  obtain ⟨front, counts, behind, hsplit, hcounts, hfront⟩ := hrecords
  obtain ⟨front', counts', behind', hsplit', hcounts', hfront'⟩ := hpermuted
  -- there is only one record of sizes
  have hsame : counts' = counts := by
    have hmem : .tableCounts counts' ∈ records := hperm.subset (by simp [hsplit'])
    rw [hsplit, List.mem_append, List.mem_cons] at hmem
    rcases hmem with hmem | heq | hmem
    · cases hcounts _ (List.mem_append_left _ hmem)
    · exact TableRecord.tableCounts.inj heq
    · cases hcounts _ (List.mem_append_right _ hmem)
  subst hsame
  obtain ⟨hiff, hholds⟩ := foldlM_countsFirst hsplit hcounts hfront
  obtain ⟨hiff', hholds'⟩ := foldlM_countsFirst hsplit' hcounts' hfront'
  have hrange := hiff.1 ⟨draft, h⟩
  obtain ⟨other, hother⟩ := hiff'.2 fun record hrecord => hrange record (hperm.subset hrecord)
  obtain ⟨hsize, hcontent⟩ := hholds draft h
  obtain ⟨hsize', hcontent'⟩ := hholds' other hother
  rw [hother]
  congr 1
  apply Draft.ext_content hsize' hsize
  intro address
  rw [hcontent, hcontent', horder]

end Runs

end GoldTables

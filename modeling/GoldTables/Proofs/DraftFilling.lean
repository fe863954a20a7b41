import GoldTables.Proofs.RecordReading

/-!
# Filling drafts

The six tables of a draft are filled in the same way, so that what holds of
filling is said once, of a `Column`: a table of the slots with the records
that fill it. Rows that come in order, one for every slot, fill the table with
these rows, and whatever fits goes in as a row that fits.

Results:
* `Column.foldlM_add`: rows in order fill their table and nothing else.
* `Draft.eq_of_finish`: what a draft that is finished held.
* `fits_of_ofRecords`: tables made of records that fit have rows that fit.
-/

namespace GoldTables

/-- Two steps succeed one after the other. -/
theorem except_bind_eq_ok {ε α β : Type} {x : Except ε α} {f : α → Except ε β} {result : β} :
    (x >>= f) = .ok result ↔ ∃ value, x = .ok value ∧ f value = .ok result := by
  cases x with
  | error fault =>
    constructor
    · intro h; cases h
    · rintro ⟨_, h, _⟩; cases h
  | ok value =>
    constructor
    · exact fun h => ⟨value, rfl, h⟩
    · rintro ⟨_, ⟨⟩, h⟩; exact h

variable {α : Type}

/-! ## One table -/

theorem fillSlot_lt {table : Table} {slots : Array (Option α)} {index : Nat} (row : α)
    (h : index < slots.size) (hsize : slots.size < 65536) :
    fillSlot table slots (UInt16.ofNat index) row = .ok (slots.set index (some row)) := by
  have hindex : (UInt16.ofNat index).toNat = index :=
    UInt16.toNat_ofNat_of_lt' (Nat.lt_trans h hsize)
  rw [fillSlot, hindex, if_pos h, Array.setIfInBounds, dif_pos h]

/-- Rows in order, one for each slot from a place on, fill these slots. -/
theorem foldlM_fillSlot (table : Table) (rows : List α) (place : Nat) (slots : Array (Option α))
    (hsize : slots.size = place + rows.length) (hlt : slots.size < 65536) :
    (rows.zipIdx place).foldlM
        (fun slots row => fillSlot table slots (UInt16.ofNat row.2) row.1) slots =
      .ok (slots.toList.take place ++ rows.map some).toArray := by
  induction rows generalizing place slots with
  | nil =>
    rw [List.length_nil, Nat.add_zero] at hsize
    rw [← hsize, ← Array.length_toList]
    simp only [List.zipIdx_nil, List.foldlM_nil, List.take_length, List.map_nil, List.append_nil]
    rfl
  | cons row rows ih =>
    rw [List.length_cons] at hsize
    have hplace : place < slots.size := by omega
    rw [List.zipIdx_cons, List.foldlM_cons, fillSlot_lt row hplace hlt]
    show (rows.zipIdx (place + 1)).foldlM _ (slots.set place (some row)) = _
    rw [ih (place + 1) (slots.set place (some row)) (by rw [Array.size_set]; omega)
      (by rw [Array.size_set]; exact hlt)]
    rw [Array.toList_set, List.take_add_one, List.getElem?_set_self (by simpa using hplace),
      List.take_set_of_le (Nat.le_refl place), List.append_assoc]
    rfl

theorem filledRows_map_some (table : Table) (rows : List α) :
    filledRows table (rows.map some).toArray = .ok rows.toArray := by
  have hnone : (rows.map some).toArray.findIdx? Option.isNone = none := by simp
  rw [filledRows, hnone]
  simp

/-- A table that is finished was filled with its rows. -/
theorem eq_map_some_of_filledRows {table : Table} {slots : Array (Option α)}
    {rows : Array α} (h : filledRows table slots = .ok rows) :
    slots = (rows.toList.map some).toArray := by
  rw [filledRows] at h
  split at h
  · cases h
  · next hnone =>
    cases h
    rw [Array.findIdx?_eq_none_iff] at hnone
    apply Array.toList_inj.1
    rw [Array.toList_filterMap]
    have hall : ∀ slot ∈ slots.toList, slot.isNone = false :=
      fun slot hslot => hnone slot (Array.mem_toList_iff.1 hslot)
    show slots.toList = (slots.toList.filterMap id).map some
    generalize slots.toList = filled at hall
    induction filled with
    | nil => rfl
    | cons slot filled ih =>
      rw [List.forall_mem_cons] at hall
      cases slot with
      | none => cases hall.1
      | some row =>
        show some row :: filled = some row :: (filled.filterMap id).map some
        rw [← ih hall.2]

/-! ## Columns -/

/-- One of the six tables of the slots, and the records that fill it. -/
structure Column (α : Type) where
  table : Table
  kind : RecordKind
  record : UInt16 → α → TableRecord
  rows : Slots → Array (Option α)
  put : Slots → Array (Option α) → Slots
  rows_put : ∀ slots filled, rows (put slots filled) = filled
  put_put : ∀ slots filled again, put (put slots filled) again = put slots again
  put_rows : ∀ slots, put slots (rows slots) = slots
  add_record : ∀ (draft : Draft) index row, draft.add (record index row) =
    draft.fill kind fun slots => do return put slots (← fillSlot table (rows slots) index row)

namespace Column

/-- The table of symbols. -/
def symbols : Column Symbol where
  table := .symbol
  kind := .symbol
  record := .symbol
  rows := Slots.symbols
  put slots filled := { slots with symbols := filled }
  rows_put _ _ := rfl
  put_put _ _ _ := rfl
  put_rows _ := rfl
  add_record _ _ _ := rfl

/-- The table of character sets. -/
def characterSets : Column CharacterSet where
  table := .characterSet
  kind := .characterSet
  record index row := .characterSet index (UInt16.ofNat row.ranges.length) row
  rows := Slots.characterSets
  put slots filled := { slots with characterSets := filled }
  rows_put _ _ := rfl
  put_put _ _ _ := rfl
  put_rows _ := rfl
  add_record _ _ _ := rfl

/-- The table of productions. -/
def productions : Column Production where
  table := .production
  kind := .production
  record := .production
  rows := Slots.productions
  put slots filled := { slots with productions := filled }
  rows_put _ _ := rfl
  put_put _ _ _ := rfl
  put_rows _ := rfl
  add_record _ _ _ := rfl

/-- The table of the automaton's states. -/
def dfaStates : Column DfaState where
  table := .dfaState
  kind := .dfaState
  record := .dfaState
  rows := Slots.dfaStates
  put slots filled := { slots with dfaStates := filled }
  rows_put _ _ := rfl
  put_put _ _ _ := rfl
  put_rows _ := rfl
  add_record _ _ _ := rfl

/-- The table of the parser's states. -/
def lrStates : Column LrState where
  table := .lrState
  kind := .lrState
  record := .lrState
  rows := Slots.lrStates
  put slots filled := { slots with lrStates := filled }
  rows_put _ _ := rfl
  put_put _ _ _ := rfl
  put_rows _ := rfl
  add_record _ _ _ := rfl

/-- The table of groups. -/
def groups : Column Group where
  table := .group
  kind := .group
  record := .group
  rows := Slots.groups
  put slots filled := { slots with groups := filled }
  rows_put _ _ := rfl
  put_put _ _ _ := rfl
  put_rows _ := rfl
  add_record _ _ _ := rfl

variable (column : Column α)

/-- The records of rows in order, from a place on. -/
def recordsFrom (place : Nat) (rows : List α) : List TableRecord :=
  (rows.zipIdx place).map fun row => column.record (UInt16.ofNat row.2) row.1

theorem add_of_slots {draft : Draft} {slots : Slots} (h : draft.slots = some slots)
    (index : UInt16) (row : α) :
    draft.add (column.record index row) =
      (fillSlot column.table (column.rows slots) index row).map
        fun filled => { draft with slots := some (column.put slots filled) } := by
  rw [column.add_record, Draft.fill, h]
  simp only
  cases fillSlot column.table (column.rows slots) index row <;> rfl

theorem foldlM_add_aux (records : List (α × Nat)) {draft : Draft} {slots : Slots}
    (h : draft.slots = some slots) :
    (records.map fun row => column.record (UInt16.ofNat row.2) row.1).foldlM Draft.add draft =
      (records.foldlM (fun slots row => fillSlot column.table slots (UInt16.ofNat row.2) row.1)
        (column.rows slots)).map
        fun filled => { draft with slots := some (column.put slots filled) } := by
  induction records generalizing draft slots with
  | nil =>
    obtain ⟨properties, _, dfa, lr⟩ := draft
    cases h
    show Except.ok _ = Except.ok _
    simp only [column.put_rows]
  | cons row records ih =>
    rw [List.map_cons, List.foldlM_cons, List.foldlM_cons, column.add_of_slots h]
    cases fillSlot column.table (column.rows slots) (UInt16.ofNat row.2) row.1 with
    | error fault => rfl
    | ok filled =>
      show List.foldlM Draft.add _ _ = Except.map _ (List.foldlM _ filled records)
      rw [ih rfl, column.rows_put]
      simp only [column.put_put]

/-- Rows in order, one for each slot, fill their table and nothing else. -/
theorem foldlM_add {draft : Draft} {slots : Slots} (rows : List α) (h : draft.slots = some slots)
    (hsize : (column.rows slots).size = rows.length) (hlt : rows.length < 65536) :
    (column.recordsFrom 0 rows).foldlM Draft.add draft =
      .ok { draft with slots := some (column.put slots (rows.map some).toArray) } := by
  rw [recordsFrom, column.foldlM_add_aux _ h,
    foldlM_fillSlot _ _ _ _ (by rw [hsize, Nat.zero_add]) (by rw [hsize]; exact hlt)]
  rfl

/-- A row goes in only if the tables have their sizes and it has a slot. -/
theorem add_ok {draft next : Draft} {index : UInt16} {row : α}
    (h : draft.add (column.record index row) = .ok next) :
    ∃ slots filled, draft.slots = some slots ∧
      fillSlot column.table (column.rows slots) index row = .ok filled ∧
      next = { draft with slots := some (column.put slots filled) } := by
  cases hslots : draft.slots with
  | none =>
    rw [column.add_record, Draft.fill, hslots] at h
    cases h
  | some slots =>
    rw [column.add_of_slots hslots] at h
    cases hfill : fillSlot column.table (column.rows slots) index row with
    | error fault =>
      rw [hfill] at h
      cases h
    | ok filled =>
      rw [hfill] at h
      cases h
      exact ⟨slots, filled, rfl, hfill, rfl⟩

end Column

/-! ## Rows that fit -/

/-- A table of slots that can be counted, with rows of some kind. -/
def FilledWith (p : α → Prop) (slots : Array (Option α)) : Prop :=
  slots.size < 65536 ∧ ∀ row, some row ∈ slots → p row

section FilledWith

variable {p : α → Prop} {slots filled : Array (Option α)}

theorem FilledWith.replicate (p : α → Prop) (n : UInt16) :
    FilledWith p (Array.replicate n.toNat none) := by
  refine ⟨by rw [Array.size_replicate]; exact n.toNat_lt, ?_⟩
  intro row hrow
  rw [Array.mem_replicate] at hrow
  cases hrow.2

theorem FilledWith.fillSlot {table : Table} {index : UInt16} {row : α} (h : FilledWith p slots)
    (hrow : p row) (hfill : GoldTables.fillSlot table slots index row = .ok filled) :
    FilledWith p filled := by
  rw [GoldTables.fillSlot] at hfill
  split at hfill
  · cases hfill
    refine ⟨by rw [Array.size_setIfInBounds]; exact h.1, ?_⟩
    intro other hother
    rcases Array.mem_or_eq_of_mem_setIfInBounds hother with hother | hother
    · exact h.2 other hother
    · cases hother
      exact hrow
  · cases hfill

theorem FilledWith.of_map_some {rows : Array α}
    (h : FilledWith p (rows.toList.map some).toArray) :
    rows.size < 65536 ∧ ∀ row ∈ rows, p row := by
  refine ⟨by simpa using h.1, fun row hrow => h.2 row ?_⟩
  simpa using hrow

end FilledWith

/-- Slots that can be counted, with rows that fit a record. -/
structure Slots.Fits (slots : Slots) : Prop where
  symbols : FilledWith Symbol.Fits slots.symbols
  characterSets : FilledWith CharacterSet.Fits slots.characterSets
  productions : FilledWith Production.Fits slots.productions
  dfaStates : FilledWith DfaState.Fits slots.dfaStates
  lrStates : FilledWith LrState.Fits slots.lrStates
  groups : FilledWith Group.Fits slots.groups

/-- A draft whose properties and rows fit a record. -/
structure Draft.Fits (draft : Draft) : Prop where
  properties : draft.properties.Fits
  slots : ∀ slots, draft.slots = some slots → slots.Fits

/-- Tables that can be counted, with properties and rows that fit a record. -/
structure Tables.Fits (tables : Tables) : Prop where
  properties : tables.properties.Fits
  symbols : tables.symbols.size < 65536 ∧ ∀ row ∈ tables.symbols, row.Fits
  characterSets : tables.characterSets.size < 65536 ∧ ∀ row ∈ tables.characterSets, row.Fits
  productions : tables.productions.size < 65536 ∧ ∀ row ∈ tables.productions, row.Fits
  dfaStates : tables.dfaStates.size < 65536 ∧ ∀ row ∈ tables.dfaStates, row.Fits
  lrStates : tables.lrStates.size < 65536 ∧ ∀ row ∈ tables.lrStates, row.Fits
  groups : tables.groups.size < 65536 ∧ ∀ row ∈ tables.groups, row.Fits

theorem Slots.Fits.ofCounts (counts : TableCounts) : (Slots.ofCounts counts).Fits :=
  ⟨.replicate _ _, .replicate _ _, .replicate _ _, .replicate _ _, .replicate _ _, .replicate _ _⟩

theorem Properties.fits_empty : Properties.empty.Fits := by
  intro value hvalue
  have hvalues : Properties.empty.values.toList = List.replicate 8 "" := rfl
  rw [hvalues, List.mem_replicate] at hvalue
  rw [hvalue.2]
  rfl

theorem Properties.Fits.set {properties : Properties} {value : String} (h : properties.Fits)
    (index : UInt16) (hvalue : hasNul value = false) : (properties.set index value).Fits := by
  rw [Properties.set]
  split
  · intro other hother
    rw [Vector.toList_set] at hother
    rcases List.mem_or_eq_of_mem_set hother with hother | rfl
    · exact h other hother
    · exact hvalue
  · exact h

namespace Draft

theorem fits_empty : empty.Fits := ⟨Properties.fits_empty, fun _ h => by cases h⟩

/-- A record that fits leaves a draft of rows that fit. -/
theorem Fits.add {draft next : Draft} {record : TableRecord} (h : draft.Fits)
    (hrecord : record.Fits) (hadd : draft.add record = .ok next) : next.Fits := by
  -- a row changes one table of slots, and the others stay as they are
  have hcolumn : ∀ {α : Type} (column : Column α) (index : UInt16) (row : α),
      draft.add (column.record index row) = .ok next →
      (∀ slots filled, slots.Fits →
        fillSlot column.table (column.rows slots) index row = .ok filled →
          (column.put slots filled).Fits) → next.Fits := by
    intro α column index row hadd hput
    obtain ⟨slots, filled, hslots, hfill, rfl⟩ := column.add_ok hadd
    refine ⟨h.properties, ?_⟩
    intro other hother
    cases hother
    exact hput slots filled (h.slots slots hslots) hfill
  cases record with
  | property index value =>
    cases hadd
    exact ⟨h.properties.set index hrecord, h.slots⟩
  | tableCounts counts =>
    cases hadd
    refine ⟨h.properties, ?_⟩
    intro slots hslots
    cases hslots
    exact .ofCounts counts
  | initialStates dfa lr =>
    cases hadd
    exact ⟨h.properties, h.slots⟩
  | symbol index row =>
    refine hcolumn Column.symbols index row hadd fun slots filled hslots hfill => ?_
    exact { hslots with symbols := hslots.symbols.fillSlot hrecord hfill }
  | characterSet index declared row =>
    refine hcolumn Column.characterSets index row hadd fun slots filled hslots hfill => ?_
    exact { hslots with characterSets := hslots.characterSets.fillSlot hrecord hfill }
  | production index row =>
    refine hcolumn Column.productions index row hadd fun slots filled hslots hfill => ?_
    exact { hslots with productions := hslots.productions.fillSlot hrecord hfill }
  | dfaState index row =>
    refine hcolumn Column.dfaStates index row hadd fun slots filled hslots hfill => ?_
    exact { hslots with dfaStates := hslots.dfaStates.fillSlot hrecord hfill }
  | lrState index row =>
    refine hcolumn Column.lrStates index row hadd fun slots filled hslots hfill => ?_
    exact { hslots with lrStates := hslots.lrStates.fillSlot hrecord hfill }
  | group index row =>
    refine hcolumn Column.groups index row hadd fun slots filled hslots hfill => ?_
    exact { hslots with groups := hslots.groups.fillSlot hrecord hfill }

theorem Fits.foldlM {draft next : Draft} {records : List TableRecord} (h : draft.Fits)
    (hrecords : ∀ record ∈ records, record.Fits)
    (hfold : records.foldlM Draft.add draft = .ok next) : next.Fits := by
  induction records generalizing draft with
  | nil =>
    cases hfold
    exact h
  | cons record records ih =>
    obtain ⟨hrecord, hrecords⟩ := List.forall_mem_cons.1 hrecords
    rw [List.foldlM_cons] at hfold
    obtain ⟨middle, hadd, hfold⟩ := except_bind_eq_ok.1 hfold
    exact ih (h.add hrecord hadd) hrecords hfold

end Draft

/-! ## Drafts that are finished -/

/-- The rows of tables as filled slots. -/
def Tables.slots (tables : Tables) : Slots where
  symbols := (tables.symbols.toList.map some).toArray
  characterSets := (tables.characterSets.toList.map some).toArray
  productions := (tables.productions.toList.map some).toArray
  dfaStates := (tables.dfaStates.toList.map some).toArray
  lrStates := (tables.lrStates.toList.map some).toArray
  groups := (tables.groups.toList.map some).toArray

/-- A draft that is finished knew the tables that come of it. -/
theorem Draft.eq_of_finish {draft : Draft} {header : String} {tables : Tables}
    (h : draft.finish header = .ok tables) :
    draft = ⟨tables.properties, some tables.slots, tables.dfaInitial, tables.lrInitial⟩ := by
  obtain ⟨properties, slots, dfa, lr⟩ := draft
  cases slots with
  | none => cases h
  | some slots =>
    obtain ⟨symbols, hsymbols, h⟩ := except_bind_eq_ok.1 h
    obtain ⟨characterSets, hcharacterSets, h⟩ := except_bind_eq_ok.1 h
    obtain ⟨productions, hproductions, h⟩ := except_bind_eq_ok.1 h
    obtain ⟨dfaStates, hdfaStates, h⟩ := except_bind_eq_ok.1 h
    obtain ⟨lrStates, hlrStates, h⟩ := except_bind_eq_ok.1 h
    obtain ⟨groups, hgroups, h⟩ := except_bind_eq_ok.1 h
    cases h
    simp only [Tables.slots, ← eq_map_some_of_filledRows hsymbols,
      ← eq_map_some_of_filledRows hcharacterSets, ← eq_map_some_of_filledRows hproductions,
      ← eq_map_some_of_filledRows hdfaStates, ← eq_map_some_of_filledRows hlrStates,
      ← eq_map_some_of_filledRows hgroups]

theorem Draft.Fits.finish {draft : Draft} {header : String} {tables : Tables} (h : draft.Fits)
    (hfinish : draft.finish header = .ok tables) : tables.Fits := by
  rw [draft.eq_of_finish hfinish] at h
  have hslots : tables.slots.Fits := h.slots _ rfl
  exact {
    properties := h.properties
    symbols := hslots.symbols.of_map_some
    characterSets := hslots.characterSets.of_map_some
    productions := hslots.productions.of_map_some
    dfaStates := hslots.dfaStates.of_map_some
    lrStates := hslots.lrStates.of_map_some
    groups := hslots.groups.of_map_some }

/-- Tables are made of records without a fault. -/
theorem Tables.ofRecords_eq_ok_iff {header : String} {records : List TableRecord}
    {fault : Option LoadError} {tables : Tables} :
    ofRecords header records fault = .ok tables ↔ fault = none ∧
      ∃ draft, records.foldlM Draft.add Draft.empty = .ok draft ∧
        draft.finish header = .ok tables := by
  rw [ofRecords, except_bind_eq_ok]
  cases fault with
  | none => simp
  | some fault => simp [throw, throwThe, MonadExceptOf.throw]

/-- Tables made of records that fit have rows that fit. -/
theorem fits_of_ofRecords {header : String} {records : List TableRecord}
    {fault : Option LoadError} {tables : Tables} (hrecords : ∀ record ∈ records, record.Fits)
    (h : Tables.ofRecords header records fault = .ok tables) : tables.Fits := by
  obtain ⟨-, draft, hdraft, hfinish⟩ := Tables.ofRecords_eq_ok_iff.1 h
  exact (Draft.fits_empty.foldlM hrecords hdraft).finish hfinish

end GoldTables

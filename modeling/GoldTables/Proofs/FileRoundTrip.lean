import GoldTables.Proofs.LoadedGrammars

/-!
# Files of grammars are read back

Whatever a file holds that can be loaded, the grammar's own file holds the
same tables in a fixed form: every row once and in order, with the declared
sizes. It can always be written, and it is loaded as the same grammar with the
header of the current version.

Results:
* `Tables.described`: the records of tables say which rows they have.
* `Tables.ofRecords_describe`: what they say is collected into the same tables.
* `Grammar.toBytes_ofBytes`: a grammar that was loaded can be written, and is loaded again.
-/

namespace GoldTables

open RecordReader TableRecord

/-! ## Records of rows -/

theorem length_flatMap_of_length {α β : Type} {parts : α → List β} {n : Nat}
    (h : ∀ value, (parts value).length = n) (values : List α) :
    (values.flatMap parts).length = n * values.length := by
  induction values with
  | nil => rfl
  | cons value values ih =>
    rw [List.flatMap_cons, List.length_append, h, ih, List.length_cons, Nat.mul_succ, Nat.add_comm]

/-- A record that is not too long, holds no NUL and is read back says what is read. -/
theorem Describes.of_yields {counted : Bool} {kind : RecordKind} {body : List Entry}
    {record : TableRecord} (hlength : body.length < 65535)
    (hwritable : ∀ entry ∈ body, entry.isWritable = true)
    (h : Yields (readBody counted kind) body record []) :
    Describes counted (kindRecord kind body) record := by
  refine ⟨⟨Nat.succ_lt_succ hlength, ?_⟩, kind, body, [], rfl, by simp, h⟩
  intro entry hentry
  rcases List.mem_cons.1 hentry with rfl | hentry
  · rfl
  · exact hwritable entry hentry

/-- All numbers can be written. -/
theorem isWritable_map_uint16 (numbers : List UInt16) :
    ∀ entry ∈ numbers.map Entry.uint16, entry.isWritable = true := by
  intro entry hentry
  obtain ⟨_, _, rfl⟩ := List.mem_map.1 hentry
  rfl

/-- Items can be written if the entries of each can. -/
theorem isWritable_flatMap {α : Type} {parts : α → List Entry}
    (h : ∀ value, ∀ entry ∈ parts value, entry.isWritable = true) (values : List α) :
    ∀ entry ∈ values.flatMap parts, entry.isWritable = true := by
  intro entry hentry
  obtain ⟨value, _, hentry⟩ := List.mem_flatMap.1 hentry
  exact h value entry hentry

theorem Symbol.describes {symbol : Symbol} (h : symbol.Fits) (hgroup : symbol.group = none) :
    Describes true symbol.toRecord (.symbol symbol.index symbol) := by
  have hname : hasNul symbol.name = false := h
  have hyields := yields_symbol h
  rw [← hgroup] at hyields
  exact .of_yields (show 3 < 65535 by omega) (by simp [Entry.isWritable, hname]) hyields

theorem CharacterSet.describes {set : CharacterSet} (h : set.Fits) (index : Nat) :
    Describes true (set.toRecord index)
      (.characterSet (UInt16.ofNat index) (UInt16.ofNat set.ranges.length) set) := by
  have hlength : 5 + 2 * set.ranges.length < 65536 := h
  refine .of_yields ?_ ?_ (yields_characterSet set index)
  · rw [List.length_append, length_flatMap_of_length (n := 2) fun _ => rfl]
    simp only [List.length_cons, List.length_nil]
    omega
  · rw [List.forall_mem_append]
    exact ⟨by simp [countEntry, Entry.isWritable],
      isWritable_flatMap (by simp [Entry.isWritable]) _⟩

theorem Production.describes {production : Production} (h : production.Fits) :
    Describes true production.toRecord (.production production.index production) := by
  have hlength : 4 + production.body.length < 65536 := h
  refine .of_yields ?_ ?_ (yields_production production)
  · simp only [List.length_append, List.length_cons, List.length_nil, List.length_map]
    omega
  · rw [List.forall_mem_append]
    exact ⟨by simp [Entry.isWritable], isWritable_map_uint16 _⟩

theorem DfaState.describes {state : DfaState} (h : state.Fits) (index : Nat) :
    Describes true (state.toRecord index) (.dfaState (UInt16.ofNat index) state) := by
  have hlength : 5 + 3 * state.edges.length < 65536 := h
  refine .of_yields ?_ ?_ (yields_dfaState state index)
  · rw [List.length_append, length_flatMap_of_length (n := 3) fun _ => rfl]
    simp only [List.length_cons, List.length_nil]
    omega
  · rw [List.forall_mem_append]
    exact ⟨by simp [countEntry, Entry.isWritable],
      isWritable_flatMap (by simp [Entry.isWritable]) _⟩

theorem LrState.describes {state : LrState} (h : state.Fits) (index : Nat) :
    Describes true (state.toRecord index) (.lrState (UInt16.ofNat index) state) := by
  have hlength := h.2
  refine .of_yields ?_ ?_ (yields_lrState h index)
  · rw [List.length_append, length_flatMap_of_length (n := 4) fun _ => rfl]
    simp only [List.length_cons, List.length_nil]
    omega
  · rw [List.forall_mem_append]
    exact ⟨by simp [countEntry, Entry.isWritable],
      isWritable_flatMap (by simp [LrAction.toEntries, Entry.isWritable]) _⟩

theorem Group.describes {group : Group} (h : group.Fits) :
    Describes true group.toRecord (.group group.index group) := by
  obtain ⟨hname, hlength⟩ := h
  refine .of_yields ?_ ?_ (yields_group ⟨hname, hlength⟩)
  · simp only [List.length_append, List.length_cons, List.length_nil, List.length_map]
    omega
  · rw [List.forall_mem_append]
    exact ⟨by simp [countEntry, Entry.isWritable, hname], isWritable_map_uint16 _⟩

/-! ## Records of tables -/

/-- What the records of properties say. -/
def Properties.describe (properties : Properties) : List TableRecord :=
  properties.toList.zipIdx.map fun row => .property (UInt16.ofNat row.2) row.1.2

theorem hasNul_formatHeader : hasNul formatHeader = false := by decide

theorem hasNul_propertyName : ∀ name ∈ propertyNames.toList, hasNul name = false := by decide

theorem Properties.described {properties : Properties} (h : properties.Fits) :
    Described false properties.toRecords properties.describe := by
  refine .map _ (fun _ => rfl) ?_
  rintro ⟨⟨name, value⟩, index⟩ hrow
  obtain ⟨hname, hvalue⟩ := List.of_mem_zip (List.fst_mem_of_mem_zipIdx hrow)
  replace hname := hasNul_propertyName name hname
  replace hvalue := h value hvalue
  exact .of_yields (show 3 < 65535 by omega)
    (by simp [countEntry, Entry.isWritable, hname, hvalue]) (yields_property _ hname hvalue)

section Rows

variable {α : Type} (column : Column α) {rows : Array α}

/-- Rows that are described one by one are described in order. -/
theorem Column.described {entries : α → Nat → List Entry}
    (hcounts : ∀ index row, (column.record index row).isTableCounts = false)
    (h : ∀ row index, rows[index]? = some row →
      Describes true (entries row index) (column.record (UInt16.ofNat index) row)) :
    Described true (rows.toList.zipIdx.map fun row => entries row.1 row.2)
      (column.recordsFrom 0 rows.toList) := by
  refine .map _ (fun _ => hcounts _ _) ?_
  rintro ⟨row, index⟩ hrow
  rw [List.mk_mem_zipIdx_iff_getElem?, Array.getElem?_toList] at hrow
  exact h row index hrow

/-- Rows that carry their places are described without being told them. -/
theorem Column.described_numbered {entries : α → List Entry} {number : Nat → α → α}
    (hnumbered : rows.mapIdx number = rows)
    (hcounts : ∀ index row, (column.record index row).isTableCounts = false)
    (h : ∀ index row, number index row ∈ rows →
      Describes true (entries (number index row))
        (column.record (UInt16.ofNat index) (number index row))) :
    Described true (rows.toList.map entries) (column.recordsFrom 0 rows.toList) := by
  have hmap : rows.toList.map entries = rows.toList.zipIdx.map fun row => entries row.1 := by
    rw [← List.zipIdx_map_fst 0 rows.toList, List.map_map, List.zipIdx_map_fst]
    rfl
  rw [hmap]
  refine .map _ (fun _ => hcounts _ _) ?_
  rintro ⟨row, index⟩ hrow
  rw [List.mk_mem_zipIdx_iff_getElem?, Array.getElem?_toList] at hrow
  have hmem := Array.mem_of_getElem? hrow
  rw [← hnumbered, Array.getElem?_mapIdx] at hrow
  obtain ⟨other, _, rfl⟩ := Option.map_eq_some_iff.1 hrow
  exact h index other hmem

end Rows

/-- A file is loaded as what its records say, behind its header. -/
theorem Grammar.ofBytes_textBytes {header : String} (hheader : hasNul header = false)
    (rest : List UInt8) :
    ofBytes (textBytes header ++ rest) =
      (Tables.ofRecords header (tableRecords (start header rest)).1
        (tableRecords (start header rest)).2).bind Tables.link := by
  rw [ofBytes, open?_textBytes hheader]
  rfl

/-- A file of described records is loaded as what they say. -/
theorem Grammar.ofBytes_described {header : String} {written : List (List Entry)}
    {records : List TableRecord} (hheader : hasNul header = false)
    (h : Described false written records) :
    ofBytes (textBytes header ++ written.flatMap recordBytes) =
      (Tables.ofRecords header records none).bind Tables.link := by
  rw [ofBytes_textBytes hheader, tableRecords_described header h]

namespace Tables

/-- The sizes of the tables. -/
def counts (tables : Tables) : TableCounts where
  symbols := UInt16.ofNat tables.symbols.size
  characterSets := UInt16.ofNat tables.characterSets.size
  productions := UInt16.ofNat tables.productions.size
  dfaStates := UInt16.ofNat tables.dfaStates.size
  lrStates := UInt16.ofNat tables.lrStates.size
  groups := UInt16.ofNat tables.groups.size

/-- What the records of numbered tables say. -/
def describe (tables : Tables) : List TableRecord :=
  tables.properties.describe ++
    [.tableCounts tables.counts, .initialStates tables.dfaInitial tables.lrInitial] ++
    Column.characterSets.recordsFrom 0 tables.characterSets.toList ++
    Column.symbols.recordsFrom 0 tables.symbols.toList ++
    Column.groups.recordsFrom 0 tables.groups.toList ++
    Column.productions.recordsFrom 0 tables.productions.toList ++
    Column.dfaStates.recordsFrom 0 tables.dfaStates.toList ++
    Column.lrStates.recordsFrom 0 tables.lrStates.toList

variable {tables : Tables}

/-- Tables of any sizes, with properties and rows that fit a record. -/
structure RowsFit (tables : Tables) : Prop where
  properties : tables.properties.Fits
  symbols : ∀ row ∈ tables.symbols, row.Fits
  characterSets : ∀ row ∈ tables.characterSets, row.Fits
  productions : ∀ row ∈ tables.productions, row.Fits
  dfaStates : ∀ row ∈ tables.dfaStates, row.Fits
  lrStates : ∀ row ∈ tables.lrStates, row.Fits
  groups : ∀ row ∈ tables.groups, row.Fits

theorem Fits.rowsFit (h : tables.Fits) : tables.RowsFit :=
  ⟨h.properties, h.symbols.2, h.characterSets.2, h.productions.2, h.dfaStates.2, h.lrStates.2,
    h.groups.2⟩

/-- The records of numbered tables say which rows they have. -/
theorem RowsFit.described (h : tables.RowsFit) (hnumbered : tables.renumber = tables) :
    Described false tables.toRecords tables.describe := by
  have hcharacterSets : Described true _ (Column.characterSets.recordsFrom 0
      tables.characterSets.toList) :=
    Column.characterSets.described (fun _ _ => rfl) fun row index hrow =>
      CharacterSet.describes (h.characterSets row (Array.mem_of_getElem? hrow)) index
  have hsymbols : Described true _ (Column.symbols.recordsFrom 0 tables.symbols.toList) :=
    Column.symbols.described_numbered (congrArg Tables.symbols hnumbered) (fun _ _ => rfl)
      fun _ _ hrow => Symbol.describes (h.symbols _ hrow) rfl
  have hgroups : Described true _ (Column.groups.recordsFrom 0 tables.groups.toList) :=
    Column.groups.described_numbered (congrArg Tables.groups hnumbered) (fun _ _ => rfl)
      fun _ _ hrow => Group.describes (h.groups _ hrow)
  have hproductions : Described true _
      (Column.productions.recordsFrom 0 tables.productions.toList) :=
    Column.productions.described_numbered (congrArg Tables.productions hnumbered) (fun _ _ => rfl)
      fun _ _ hrow => Production.describes (h.productions _ hrow)
  have hdfaStates : Described true _ (Column.dfaStates.recordsFrom 0 tables.dfaStates.toList) :=
    Column.dfaStates.described (fun _ _ => rfl) fun row index hrow =>
      DfaState.describes (h.dfaStates row (Array.mem_of_getElem? hrow)) index
  have hlrStates : Described true _ (Column.lrStates.recordsFrom 0 tables.lrStates.toList) :=
    Column.lrStates.described (fun _ _ => rfl) fun row index hrow =>
      LrState.describes (h.lrStates row (Array.mem_of_getElem? hrow)) index
  have hrows := hcharacterSets.append <| hsymbols.append <| hgroups.append <|
    hproductions.append <| hdfaStates.append hlrStates
  -- the rows come behind the sizes of the tables, and so they are read
  have hcounts : ∀ counted, Describes counted tables.countsRecord (.tableCounts tables.counts) :=
    fun _ => .of_yields (show 6 < 65535 by omega) (by simp [countEntry, Entry.isWritable])
      (yields_tableCounts tables.counts)
  have hinitial : ∀ counted, Describes counted tables.initialRecord
      (.initialStates tables.dfaInitial tables.lrInitial) :=
    fun _ => .of_yields (show 2 < 65535 by omega) (by simp [Entry.isWritable])
      (yields_initialStates _ _)
  simp only [toRecords, describe, List.append_assoc]
  refine (Properties.described h.properties).append (.cons (hcounts _) (.cons (hinitial _) ?_))
  rw [show TableRecord.isTableCounts (.tableCounts tables.counts) = true from rfl, Bool.or_true]
  exact hrows

theorem described (h : tables.Fits) (hnumbered : tables.renumber = tables) :
    Described false tables.toRecords tables.describe :=
  h.rowsFit.described hnumbered

/-! ## Drafts of tables -/

/-- The properties are set one by one. -/
theorem foldlM_properties (properties : Properties) :
    properties.describe.foldlM Draft.add Draft.empty = .ok ⟨properties, none, 0, 0⟩ := by
  obtain ⟨⟨⟨values⟩, hsize⟩⟩ := properties
  match values, hsize with
  | [_, _, _, _, _, _, _, _], _ => rfl

theorem foldlM_append_of_ok {draft middle : Draft} {records : List TableRecord}
    (h : records.foldlM Draft.add draft = .ok middle) (more : List TableRecord) :
    (records ++ more).foldlM Draft.add draft = more.foldlM Draft.add middle := by
  rw [List.foldlM_append, h]
  rfl

/-- A table is filled, and then the records behind its rows are entered. -/
theorem foldlM_column {α : Type} (column : Column α) {rows : Array α} {slots : Slots}
    (h : (column.rows slots).size = rows.size ∧ rows.size < 65536) (properties : Properties)
    (dfa lr : UInt16) (more : List TableRecord) :
    (column.recordsFrom 0 rows.toList ++ more).foldlM Draft.add ⟨properties, some slots, dfa, lr⟩ =
      more.foldlM Draft.add
        ⟨properties, some (column.put slots (rows.toList.map some).toArray), dfa, lr⟩ :=
  foldlM_append_of_ok (column.foldlM_add rows.toList rfl h.1 h.2) more

/-- What numbered tables say is collected into the same tables. -/
theorem ofRecords_describe (h : tables.Fits) (header : String) :
    ofRecords header tables.describe none = .ok { tables with header := header } := by
  have hopen : ∀ {α : Type} {size : Nat}, size < 65536 →
      (Array.replicate (UInt16.ofNat size).toNat (none : Option α)).size = size ∧ size < 65536 := by
    intro α size hsize
    rw [Array.size_replicate]
    exact ⟨UInt16.toNat_ofNat_of_lt' hsize, hsize⟩
  have hfold : tables.describe.foldlM Draft.add Draft.empty =
      .ok ⟨tables.properties, some tables.slots, tables.dfaInitial, tables.lrInitial⟩ := by
    rw [← List.append_nil tables.describe]
    simp only [describe, List.append_assoc, List.cons_append, List.nil_append]
    rw [foldlM_append_of_ok (foldlM_properties tables.properties)]
    show List.foldlM Draft.add ⟨tables.properties, some (.ofCounts tables.counts),
      tables.dfaInitial, tables.lrInitial⟩ _ = _
    rw [foldlM_column Column.characterSets, foldlM_column Column.symbols,
      foldlM_column Column.groups, foldlM_column Column.productions,
      foldlM_column Column.dfaStates, foldlM_column Column.lrStates]
    · rfl
    · exact hopen h.lrStates.1
    · exact hopen h.dfaStates.1
    · exact hopen h.productions.1
    · exact hopen h.groups.1
    · exact hopen h.symbols.1
    · exact hopen h.characterSets.1
  rw [ofRecords, hfold]
  show Draft.finish ⟨tables.properties, some tables.slots, tables.dfaInitial, tables.lrInitial⟩
    header = _
  rw [Draft.finish]
  simp only [slots, filledRows_map_some, Array.toArray_toList]
  rfl

/-! ## Files of tables -/

theorem fits_mapIdx {α : Type} {p : α → Prop} {number : Nat → α → α} {rows : Array α}
    (hnumber : ∀ index row, p row → p (number index row))
    (h : rows.size < 65536 ∧ ∀ row ∈ rows, p row) :
    (rows.mapIdx number).size < 65536 ∧ ∀ row ∈ rows.mapIdx number, p row := by
  refine ⟨by rw [Array.size_mapIdx]; exact h.1, fun row hrow => ?_⟩
  obtain ⟨index, hindex, rfl⟩ := Array.mem_mapIdx.1 hrow
  exact hnumber index _ (h.2 _ (Array.getElem_mem hindex))

/-- The parser states of tables that fit are indexed already. -/
theorem Fits.renumber_lrStates (h : tables.Fits) : tables.renumber.lrStates = tables.lrStates := by
  show tables.lrStates.map LrState.reindex = _
  rw [Array.map_congr_left fun state hstate => (h.lrStates.2 state hstate).1.reindex_eq,
    Array.map_id']

/-- Numbering keeps what the rows hold. -/
theorem Fits.renumber (h : tables.Fits) : tables.renumber.Fits where
  properties := h.properties
  symbols := fits_mapIdx (fun _ _ hrow => hrow) h.symbols
  characterSets := h.characterSets
  productions := fits_mapIdx (fun _ _ hrow => hrow) h.productions
  dfaStates := h.dfaStates
  lrStates := by
    rw [h.renumber_lrStates]
    exact h.lrStates
  groups := fits_mapIdx (fun _ _ hrow => hrow) h.groups

theorem countsRecord_linkGroups (tables : Tables) :
    tables.linkGroups.countsRecord = tables.countsRecord := by
  rw [countsRecord, size_symbols_linkGroups]
  rfl

/-- The groups of the symbols are not written. -/
theorem toRecords_linkGroups (tables : Tables) :
    tables.linkGroups.toRecords = tables.toRecords := by
  have hsymbols : tables.linkGroups.symbols.toList.map Symbol.toRecord =
      tables.symbols.toList.map Symbol.toRecord := by
    rw [← Array.toList_map, ← Array.toList_map,
      map_symbols_linkGroups Symbol.toRecord (fun _ _ => rfl)]
  rw [toRecords, hsymbols, countsRecord_linkGroups]
  rfl

/-- The file of numbered tables can be written, and is loaded as these tables. -/
theorem ofBytes_fileBytes (h : tables.Fits) (hnumbered : tables.renumber = tables) :
    ∃ bytes, fileBytes formatHeader tables.toRecords = .ok bytes ∧
      Grammar.ofBytes bytes = ({ tables with header := formatHeader } : Tables).link := by
  have hdescribed := described h hnumbered
  refine ⟨_, fileBytes_encodable hasNul_formatHeader hdescribed.encodable, ?_⟩
  rw [Grammar.ofBytes_described hasNul_formatHeader hdescribed, ofRecords_describe h]
  rfl

end Tables

/-! ## Files of grammars -/

/-- A grammar that was loaded can be written: no record is too long, and no text holds a NUL.
    What is written is loaded as the same grammar with the current header, and that grammar is
    written as the same bytes. -/
theorem Grammar.toBytes_ofBytes {bytes : List UInt8} {grammar : Grammar}
    (h : ofBytes bytes = .ok grammar) :
    (∀ record ∈ grammar.toTables.toRecords,
        record.length ≤ 65535 ∧ ∀ entry ∈ record, entry.isWritable = true) ∧
      ∃ written, grammar.toBytes = .ok written ∧
        ofBytes written = .ok { grammar with header := formatHeader } ∧
        ({ grammar with header := formatHeader } : Grammar).toBytes = .ok written := by
  obtain ⟨tables, hfits, hlink⟩ := ofBytes_eq_ok h
  have hnumbered := tables.renumber_renumber
  -- the grammar is written as the numbered tables that it was linked from
  have hrecords : grammar.toTables.toRecords = tables.renumber.toRecords := by
    obtain ⟨_, _, _, _, _, rfl⟩ := Tables.link_eq_ok_iff.1 hlink
    exact tables.renumber.toRecords_linkGroups
  obtain ⟨written, hwritten, hread⟩ := Tables.ofBytes_fileBytes hfits.renumber hnumbered
  rw [← Tables.link_renumber] at hlink
  rw [Tables.link_header formatHeader hlink] at hread
  rw [← hrecords] at hwritten
  refine ⟨?_, written, hwritten, hread, hwritten⟩
  rw [hrecords]
  intro record hrecord
  have hencodable := (Tables.described hfits.renumber hnumbered).encodable record hrecord
  exact ⟨Nat.le_of_lt_succ hencodable.length_lt, hencodable.isWritable⟩

theorem Grammar.toBytes_ofBytes_sampleFile :
    ∃ grammar written, ofBytes sampleFile = .ok grammar ∧
      (∀ record ∈ grammar.toTables.toRecords,
        record.length ≤ 65535 ∧ ∀ entry ∈ record, entry.isWritable = true) ∧
      grammar.toBytes = .ok written ∧
      ofBytes written = .ok { grammar with header := formatHeader } ∧
      ({ grammar with header := formatHeader } : Grammar).toBytes = .ok written := by
  obtain ⟨grammar, h⟩ := exists_ofBytes_sampleFile
  obtain ⟨hrecords, written, hwritten, hread, hagain⟩ := toBytes_ofBytes h
  exact ⟨grammar, written, h, hrecords, hwritten, hread, hagain⟩

end GoldTables

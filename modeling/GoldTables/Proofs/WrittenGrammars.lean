import GoldTables.Proofs.FileRoundTrip
import GoldTables.Proofs.LoadedGrammars
import GoldTables.Proofs.JsonText

/-!
# Files of grammars that came from JSON

Whatever is written had records that can be written, and such records are read
back as they were. But the sizes of the tables are written modulo 65536, and
the tables of a JSON document may be larger than that. The loader opens as many
rows as the file declares, and refuses the first row that has no place.

Results:
* `Tables.rowsFit_of_fileBytes`: what a file was written of fits its records.
* `Tables.foldlM_describe`: the records of tables of any sizes are collected table by table, up to
  the first one that is too large.
* `Grammar.ofBytes_of_toBytes_ofDocument`: a grammar from JSON is read back from its file unless a
  table is too large, and then the file is refused.
-/

namespace GoldTables

open RecordReader

/-! ## Records that were written -/

/-- A record that was written can be written. -/
theorem encodable_of_writeRecord {entries : List Entry} {bytes : List UInt8}
    (h : (writeRecord entries).toExcept = .ok bytes) : Encodable entries := by
  rw [writeRecord] at h
  split at h
  · cases h
  · next hlength =>
    split at h
    · next hfind =>
      refine ⟨by omega, fun entry hentry => ?_⟩
      simpa using List.find?_eq_none.1 hfind entry hentry
    · cases h

theorem exists_of_mapM_eq_ok {ε α β : Type} {f : α → Except ε β} {items : List α}
    {results : List β} (h : items.mapM f = .ok results) :
    ∀ item ∈ items, ∃ result, f item = .ok result := by
  induction items generalizing results with
  | nil => exact fun _ hmem => absurd hmem List.not_mem_nil
  | cons item items ih =>
    rw [List.mapM_cons] at h
    obtain ⟨first, hfirst, h⟩ := except_bind_eq_ok.1 h
    obtain ⟨others, hothers, -⟩ := except_bind_eq_ok.1 h
    rw [List.forall_mem_cons]
    exact ⟨⟨first, hfirst⟩, ih hothers⟩

/-- The records of a file that was written can be written. -/
theorem encodable_of_fileBytes {header : String} {written : List (List Entry)} {bytes : List UInt8}
    (h : fileBytes header written = .ok bytes) : ∀ entries ∈ written, Encodable entries := by
  intro entries hentries
  obtain ⟨_, -, h⟩ := except_bind_eq_ok.1 h
  obtain ⟨_, hparts, -⟩ := except_bind_eq_ok.1 h
  obtain ⟨_, hrecord⟩ := exists_of_mapM_eq_ok hparts entries hentries
  exact encodable_of_writeRecord hrecord

/-- What can be written, and the bytes of it. -/
theorem fileBytes_eq_ok_iff {header : String} {written : List (List Entry)} {bytes : List UInt8} :
    fileBytes header written = .ok bytes ↔ hasNul header = false ∧
      (∀ entries ∈ written, Encodable entries) ∧
        bytes = textBytes header ++ written.flatMap recordBytes := by
  constructor
  · intro h
    have hheader : hasNul header = false := by
      cases hnul : hasNul header with
      | false => rfl
      | true =>
        rw [fileBytes, writeHeader, writeText, hnul] at h
        cases h
    have hencodable := encodable_of_fileBytes h
    rw [fileBytes_encodable hheader hencodable] at h
    cases h
    exact ⟨hheader, hencodable, rfl⟩
  · rintro ⟨hheader, hencodable, rfl⟩
    exact fileBytes_encodable hheader hencodable

/-! ## Rows that were written -/

theorem Encodable.hasNul {entries : List Entry} {text : String} (h : Encodable entries)
    (hmem : .string text ∈ entries) : hasNul text = false := by
  simpa [Entry.isWritable] using h.isWritable _ hmem

theorem Symbol.fits_of_encodable {symbol : Symbol} (h : Encodable symbol.toRecord) :
    symbol.Fits :=
  h.hasNul (by simp [toRecord, kindRecord])

/-- A record that was written counts the entries of its items. -/
theorem Encodable.items_lt {α : Type} {kind : RecordKind} {fixed : List Entry}
    {parts : α → List Entry} {values : List α} {n : Nat}
    (h : Encodable (kindRecord kind (fixed ++ values.flatMap parts)))
    (hparts : ∀ value, (parts value).length = n) :
    1 + fixed.length + n * values.length < 65536 := by
  have hlength := h.length_lt
  rw [kindRecord, List.length_cons, List.length_append, length_flatMap_of_length hparts] at hlength
  omega

theorem Encodable.numbers_lt {kind : RecordKind} {fixed : List Entry} {numbers : List UInt16}
    (h : Encodable (kindRecord kind (fixed ++ numbers.map .uint16))) :
    1 + fixed.length + numbers.length < 65536 := by
  rw [List.map_eq_flatMap] at h
  have hlength := h.items_lt (n := 1) fun _ => rfl
  omega

theorem CharacterSet.fits_of_encodable {set : CharacterSet} {index : Nat}
    (h : Encodable (set.toRecord index)) : set.Fits :=
  h.items_lt (n := 2) fun _ => rfl

theorem Production.fits_of_encodable {production : Production}
    (h : Encodable production.toRecord) : production.Fits :=
  h.numbers_lt

theorem DfaState.fits_of_encodable {state : DfaState} {index : Nat}
    (h : Encodable (state.toRecord index)) : state.Fits :=
  h.items_lt (n := 3) fun _ => rfl

theorem LrState.fits_of_encodable {state : LrState} {index : Nat} (hindexed : state.Indexed)
    (h : Encodable (state.toRecord index)) : state.Fits :=
  ⟨hindexed, h.items_lt (n := 4) fun _ => rfl⟩

theorem Group.fits_of_encodable {group : Group} (h : Encodable group.toRecord) : group.Fits :=
  ⟨h.hasNul (by simp [toRecord, kindRecord]), h.numbers_lt⟩

theorem Properties.fits_of_encodable {properties : Properties}
    (h : ∀ record ∈ properties.toRecords, Encodable record) : properties.Fits := by
  intro value hvalue
  have hvalues :
      (properties.toList.zipIdx.map Prod.fst).map Prod.snd = properties.values.toList := by
    rw [List.zipIdx_map_fst]
    exact List.map_snd_zip (by simp)
  rw [← hvalues] at hvalue
  obtain ⟨_, hmem, rfl⟩ := List.mem_map.1 hvalue
  obtain ⟨row, hrow, rfl⟩ := List.mem_map.1 hmem
  exact (h _ (List.mem_map_of_mem hrow)).hasNul (by simp [kindRecord])

namespace Tables

variable {tables : Tables}

theorem exists_mem_zipIdx {α : Type} {rows : Array α} {row : α} (h : row ∈ rows) :
    ∃ index, (row, index) ∈ rows.toList.zipIdx := by
  obtain ⟨index, hindex, rfl⟩ := Array.getElem_of_mem h
  exact ⟨index, List.mk_mem_zipIdx_iff_getElem?.2 (by simp [hindex])⟩

/-- What a file was written of fits its records. -/
theorem rowsFit_of_fileBytes {header : String} {bytes : List UInt8}
    (hindexed : ∀ state ∈ tables.lrStates, state.Indexed)
    (h : fileBytes header tables.toRecords = .ok bytes) : tables.RowsFit := by
  have hrecords := encodable_of_fileBytes h
  simp only [toRecords, List.forall_mem_append, List.forall_mem_map] at hrecords
  obtain ⟨⟨⟨⟨⟨⟨⟨hproperties, -⟩, hcharacterSets⟩, hsymbols⟩, hgroups⟩, hproductions⟩, hdfaStates⟩,
    hlrStates⟩ := hrecords
  exact {
    properties := Properties.fits_of_encodable hproperties
    symbols := fun row hrow => Symbol.fits_of_encodable (hsymbols row (Array.mem_toList_iff.2 hrow))
    characterSets := fun row hrow => by
      obtain ⟨index, hmem⟩ := exists_mem_zipIdx hrow
      exact CharacterSet.fits_of_encodable (hcharacterSets _ hmem)
    productions := fun row hrow =>
      Production.fits_of_encodable (hproductions row (Array.mem_toList_iff.2 hrow))
    dfaStates := fun row hrow => by
      obtain ⟨index, hmem⟩ := exists_mem_zipIdx hrow
      exact DfaState.fits_of_encodable (hdfaStates _ hmem)
    lrStates := fun row hrow => by
      obtain ⟨index, hmem⟩ := exists_mem_zipIdx hrow
      exact LrState.fits_of_encodable (hindexed row hrow) (hlrStates _ hmem)
    groups := fun row hrow => Group.fits_of_encodable (hgroups row (Array.mem_toList_iff.2 hrow)) }

end Tables

/-! ## Tables that are too large -/

namespace Column

variable {α : Type} (column : Column α)

theorem recordsFrom_append (place : Nat) (first second : List α) :
    column.recordsFrom place (first ++ second) =
      column.recordsFrom place first ++ column.recordsFrom (place + first.length) second := by
  rw [recordsFrom, List.zipIdx_append, List.map_append]
  rfl

/-- Of rows in order, the first one without a slot is refused. -/
theorem foldlM_add_of_gt {draft : Draft} {slots : Slots} (rows : List α)
    (h : draft.slots = some slots) (hlt : (column.rows slots).size < rows.length)
    (hsize : (column.rows slots).size < 65536) :
    (column.recordsFrom 0 rows).foldlM Draft.add draft =
      .error (.indexOutOfRange column.table (UInt16.ofNat (column.rows slots).size)
        (column.rows slots).size) := by
  generalize hplaces : (column.rows slots).size = places at hlt hsize
  -- the first rows take all slots, and the place of the next one is the number of slots
  have hlength : (rows.take places).length = places := by
    rw [List.length_take]
    omega
  rw [← List.take_append_drop places rows, column.recordsFrom_append, List.foldlM_append,
    column.foldlM_add (rows.take places) h (hplaces.trans hlength.symm) (by omega), hlength,
    Nat.zero_add, List.drop_eq_getElem_cons hlt]
  show List.foldlM Draft.add _ (column.record (UInt16.ofNat places) rows[places] :: _) = _
  rw [List.foldlM_cons, column.add_of_slots rfl, column.rows_put, fillSlot]
  have hfull : ((rows.take places).map some).toArray.size = places := by simpa using hlength
  rw [hfull, UInt16.toNat_ofNat_of_lt' hsize, if_neg (Nat.lt_irrefl places)]
  rfl

end Column

namespace Tables

variable {tables : Tables}

/-- The sizes of the tables, in the order in which their rows are written. -/
def sizes (tables : Tables) : List (Table × Nat) :=
  [(.characterSet, tables.characterSets.size), (.symbol, tables.symbols.size),
    (.group, tables.groups.size), (.production, tables.productions.size),
    (.dfaState, tables.dfaStates.size), (.lrState, tables.lrStates.size)]

/-- The first table with more rows than a file can declare. -/
def oversized? (tables : Tables) : Option (Table × Nat) :=
  tables.sizes.find? fun sized => 65536 ≤ sized.2

theorem fits_of_oversized? (h : tables.RowsFit) (hnone : tables.oversized? = none) :
    tables.Fits := by
  have hsizes : ∀ sized ∈ tables.sizes, sized.2 < 65536 := by
    intro sized hmem
    simpa using List.find?_eq_none.1 hnone sized hmem
  simp only [sizes, List.forall_mem_cons] at hsizes
  obtain ⟨hcharacterSets, hsymbols, hgroups, hproductions, hdfaStates, hlrStates, -⟩ := hsizes
  exact ⟨h.properties, ⟨hsymbols, h.symbols⟩, ⟨hcharacterSets, h.characterSets⟩,
    ⟨hproductions, h.productions⟩, ⟨hdfaStates, h.dfaStates⟩, ⟨hlrStates, h.lrStates⟩,
    ⟨hgroups, h.groups⟩⟩

/-- A table with more rows than the file declares is refused, and otherwise there is a next. -/
def refuse {β : Type} (sized : Table × Nat) (next : Except LoadError β) : Except LoadError β :=
  if 65536 ≤ sized.2 then
    .error (.indexOutOfRange sized.1 (UInt16.ofNat sized.2) (sized.2 % 65536))
  else next

/-- The first table that is refused decides. -/
theorem foldr_refuse_of_find? {β : Type} {sizes : List (Table × Nat)} {table : Table} {size : Nat}
    (h : (sizes.find? fun sized => 65536 ≤ sized.2) = some (table, size))
    (last : Except LoadError β) :
    sizes.foldr refuse last =
      .error (.indexOutOfRange table (UInt16.ofNat size) (size % 65536)) := by
  induction sizes with
  | nil => cases h
  | cons sized sizes ih =>
    rw [List.foldr_cons, refuse]
    by_cases hlarge : 65536 ≤ sized.2
    · rw [List.find?_cons_of_pos (by simpa using hlarge)] at h
      cases h
      rw [if_pos hlarge]
    · rw [List.find?_cons_of_neg (by simpa using hlarge)] at h
      rw [if_neg hlarge, ih h]

/-- A table whose slots are as many as its size modulo 65536 is filled, or refused. -/
theorem foldlM_column_of_mod {α : Type} (column : Column α) {rows : Array α} {slots : Slots}
    (h : (column.rows slots).size = rows.size % 65536) (properties : Properties) (dfa lr : UInt16)
    (more : List TableRecord) :
    (column.recordsFrom 0 rows.toList ++ more).foldlM Draft.add ⟨properties, some slots, dfa, lr⟩ =
      refuse (column.table, rows.size) (more.foldlM Draft.add
        ⟨properties, some (column.put slots (rows.toList.map some).toArray), dfa, lr⟩) := by
  rw [refuse]
  by_cases hlarge : 65536 ≤ rows.size
  · have hlt := Nat.mod_lt rows.size (show 0 < 65536 by omega)
    rw [if_pos hlarge, List.foldlM_append, column.foldlM_add_of_gt rows.toList rfl
      (by rw [h, Array.length_toList]; omega) (by rw [h]; exact hlt), h, UInt16.ofNat_mod_size]
    rfl
  · have hmod := Nat.mod_eq_of_lt (Nat.lt_of_not_le hlarge)
    rw [if_neg hlarge, foldlM_column column ⟨h.trans hmod, Nat.lt_of_not_le hlarge⟩]

/-- What the records of tables of any sizes say is collected table by table, up to the first one
    that is refused. -/
theorem foldlM_describe (tables : Tables) :
    tables.describe.foldlM Draft.add Draft.empty = tables.sizes.foldr refuse
      (.ok ⟨tables.properties, some tables.slots, tables.dfaInitial, tables.lrInitial⟩) := by
  have hopen : ∀ {α : Type} (size : Nat),
      (Array.replicate (UInt16.ofNat size).toNat (none : Option α)).size = size % 65536 :=
    fun _ => Array.size_replicate
  rw [← List.append_nil tables.describe]
  simp only [describe, List.append_assoc, List.cons_append, List.nil_append]
  rw [foldlM_append_of_ok (foldlM_properties tables.properties)]
  show List.foldlM Draft.add ⟨tables.properties, some (.ofCounts tables.counts),
    tables.dfaInitial, tables.lrInitial⟩ _ = _
  rw [foldlM_column_of_mod Column.characterSets, foldlM_column_of_mod Column.symbols,
    foldlM_column_of_mod Column.groups, foldlM_column_of_mod Column.productions,
    foldlM_column_of_mod Column.dfaStates, foldlM_column_of_mod Column.lrStates]
  · rfl
  · exact hopen tables.lrStates.size
  · exact hopen tables.dfaStates.size
  · exact hopen tables.productions.size
  · exact hopen tables.groups.size
  · exact hopen tables.symbols.size
  · exact hopen tables.characterSets.size

/-- The file of numbered tables of which one is too large is refused. -/
theorem ofBytes_of_oversized? {bytes : List UInt8} {table : Table} {size : Nat}
    (h : tables.RowsFit) (hnumbered : tables.renumber = tables)
    (hoversized : tables.oversized? = some (table, size))
    (hbytes : fileBytes formatHeader tables.toRecords = .ok bytes) :
    Grammar.ofBytes bytes =
      .error (.indexOutOfRange table (UInt16.ofNat size) (size % 65536)) := by
  have hdescribed := h.described hnumbered
  rw [fileBytes_encodable hasNul_formatHeader hdescribed.encodable] at hbytes
  cases hbytes
  rw [Grammar.ofBytes_described hasNul_formatHeader hdescribed, ofRecords, foldlM_describe,
    foldr_refuse_of_find? hoversized]
  rfl

variable {grammar : Grammar}

/-- A grammar is written as the numbered tables that it was linked from. -/
theorem toRecords_of_link (h : tables.link = .ok grammar) :
    grammar.toTables.toRecords = tables.renumber.toRecords := by
  obtain ⟨_, _, _, _, _, rfl⟩ := link_eq_ok_iff.1 h
  exact tables.renumber.toRecords_linkGroups

theorem sizes_of_link (h : tables.link = .ok grammar) : grammar.sizes = tables.renumber.sizes := by
  obtain ⟨_, _, _, _, _, rfl⟩ := link_eq_ok_iff.1 h
  rw [sizes, size_symbols_linkGroups]
  rfl

end Tables

/-! ## A document of parser states -/

open Json Text

/-- The part of the document in front of its parser states, and the first of them. -/
def statesOpening : List UInt8 :=
  toUtf8 "[\"GOLD Parser Tables/v5.0\"," ++
    toUtf8 "[[\"\",\"\",\"\",\"\",\"\",\"\",\"\",\"\"]]," ++
    toUtf8 "[[0,\"\",\"End\",null],[1,\"\",\"Error\",null]]," ++
    toUtf8 "[],[],[[null,[]]],[[[]]"

/-- The document of tables with a parser state, and with more of them. -/
def statesDocument (more : Nat) : List UInt8 :=
  statesOpening ++ (List.replicate more (toUtf8 ",[[]]")).flatten ++ toUtf8 "],[],0,0]"

/-- The values in front of the parser states of the document. -/
def openingValues : List Json :=
  [.str formatHeader, .arr [.arr (List.replicate 8 (.str ""))],
    .arr [.arr [.int 0, .str "", .str "End", .null], .arr [.int 1, .str "", .str "Error", .null]],
    .arr [], .arr [], .arr [.arr [.null, .arr []]]]

/-- The value of the document. -/
def statesJson (more : Nat) : Json :=
  .arr (openingValues ++
    [.arr (List.replicate (more + 1) (.arr [.arr []])), .arr [], .int 0, .int 0])

theorem exists_lexemes_statesOpening :
    ∃ lexemes, Lexes statesOpening lexemes ∧ lexemes.foldlM Machine.step Machine.start =
      some ⟨[.array [.arr [.arr []]], .array openingValues.reverse], .next⟩ := by
  have hheader : Lexes (toUtf8 "[\"GOLD Parser Tables/v5.0\",")
      [.openArray, .value (.str formatHeader), .comma] := fun _ _ => rfl
  have hproperties : Lexes (toUtf8 "[[\"\",\"\",\"\",\"\",\"\",\"\",\"\",\"\"]],")
      [.openArray, .openArray, .value (.str ""), .comma, .value (.str ""), .comma,
        .value (.str ""), .comma, .value (.str ""), .comma, .value (.str ""), .comma,
        .value (.str ""), .comma, .value (.str ""), .comma, .value (.str ""), .closeArray,
        .closeArray, .comma] := fun _ _ => rfl
  have hsymbols : Lexes (toUtf8 "[[0,\"\",\"End\",null],[1,\"\",\"Error\",null]],")
      [.openArray, .openArray, .value (.int 0), .comma, .value (.str ""), .comma,
        .value (.str "End"), .comma, .value .null, .closeArray, .comma, .openArray,
        .value (.int 1), .comma, .value (.str ""), .comma, .value (.str "Error"), .comma,
        .value .null, .closeArray, .closeArray, .comma] := fun _ _ => rfl
  have hstates : Lexes (toUtf8 "[],[],[[null,[]]],[[[]]")
      [.openArray, .closeArray, .comma, .openArray, .closeArray, .comma, .openArray, .openArray,
        .value .null, .comma, .openArray, .closeArray, .closeArray, .closeArray, .comma, .openArray,
        .openArray, .openArray, .closeArray, .closeArray] := fun _ _ => rfl
  exact ⟨_, ((hheader.append hproperties).append hsymbols).append hstates, rfl⟩

/-- The lexemes of another parser state. -/
def stateLexemes : List Lexeme := [.comma, .openArray, .openArray, .closeArray, .closeArray]

theorem foldlM_stateLexemes (more : Nat) (done : List Json) (frames : List Frame) :
    (List.replicate more stateLexemes).flatten.foldlM Machine.step ⟨.array done :: frames, .next⟩ =
      some ⟨.array (List.replicate more (.arr [.arr []]) ++ done) :: frames, .next⟩ := by
  induction more generalizing done with
  | zero => rfl
  | succ more ih =>
    rw [List.replicate_succ, List.flatten_cons, List.foldlM_append]
    show List.foldlM Machine.step ⟨.array (.arr [.arr []] :: done) :: frames, .next⟩ _ = _
    rw [ih, List.append_cons, ← List.replicate_succ']

theorem parse?_statesDocument (more : Nat) :
    Json.parse? (statesDocument more) = some (statesJson more) := by
  obtain ⟨lexemes, hopening, hfold⟩ := exists_lexemes_statesOpening
  have hstate : Lexes (toUtf8 ",[[]]") stateLexemes := fun _ _ => rfl
  have hend : Lexes (toUtf8 "],[],0,0]")
      [.closeArray, .comma, .openArray, .closeArray, .comma, .value (.int 0), .comma,
        .value (.int 0), .closeArray] := fun _ _ => rfl
  have hlexes := (hopening.append (hstate.replicate more)).append hend
  rw [parse?, statesDocument, hlexes.before.lexemes?, Option.bind_eq_bind, Option.bind_some,
    List.foldlM_append, List.foldlM_append, hfold, Option.bind_eq_bind, Option.bind_eq_bind,
    Option.bind_some, foldlM_stateLexemes, ← List.replicate_succ']
  show some (Json.arr [_, _, _, _, _, _, .arr (List.replicate (more + 1) _).reverse, _, _, _]) = _
  rw [List.reverse_replicate]
  rfl

/-- The tables of the document. -/
def statesTables (more : Nat) : Tables where
  header := formatHeader
  properties := .empty
  symbols := #[⟨0, "", .endOfInput, none⟩, ⟨1, "", .error, none⟩]
  characterSets := #[]
  productions := #[]
  dfaStates := #[⟨none, []⟩]
  lrStates := Array.replicate (more + 1) .empty
  groups := #[]
  dfaInitial := 0
  lrInitial := 0

theorem mapM_replicate_some {α β : Type} {item? : α → Option β} {item : α} {row : β}
    (h : item? item = some row) (n : Nat) :
    (List.replicate n item).mapM item? = some (List.replicate n row) := by
  induction n with
  | zero => rfl
  | succ n ih =>
    rw [List.replicate_succ, List.mapM_cons, h, ih]
    rfl

theorem ofJson?_statesJson (more : Nat) :
    Tables.ofJson? (statesJson more) = some (statesTables more) := by
  have hstate : LrState.ofJson? (.arr [.arr []]) = some .empty := rfl
  have hstates : (Json.arr (List.replicate (more + 1) (.arr [.arr []]))).list? LrState.ofJson? =
      some (List.replicate (more + 1) .empty) := mapM_replicate_some hstate (more + 1)
  rw [Tables.ofJson?, statesJson]
  show (do
    let states ← (Json.arr (List.replicate (more + 1) (.arr [.arr []]))).list? LrState.ofJson?
    return { statesTables more with lrStates := states.toArray } : Option Tables) = _
  rw [hstates]
  show some { statesTables more with
    lrStates := (List.replicate (more + 1) LrState.empty).toArray } = _
  rw [List.toArray_replicate]
  rfl

theorem rowsFit_statesTables (more : Nat) : (statesTables more).RowsFit where
  properties := Properties.fits_empty
  symbols := by simp [statesTables, Symbol.Fits, hasNul]
  characterSets _ hrow := absurd hrow (by simp [statesTables])
  productions _ hrow := absurd hrow (by simp [statesTables])
  dfaStates := by simp [statesTables, DfaState.Fits]
  lrStates row hrow := by
    obtain rfl := (Array.mem_replicate.1 hrow).2
    exact ⟨rfl, show 3 < 65536 by omega⟩
  groups _ hrow := absurd hrow (by simp [statesTables])

theorem renumber_statesTables (more : Nat) :
    (statesTables more).renumber = statesTables more := by
  have hstates : (Array.replicate (more + 1) LrState.empty).map LrState.reindex =
      Array.replicate (more + 1) .empty := Array.map_replicate
  show { statesTables more with
    lrStates := (Array.replicate (more + 1) LrState.empty).map LrState.reindex } = _
  rw [hstates]
  rfl

theorem inRange_statesTables (more : Nat) : (statesTables more).InRange where
  productions _ hrow := absurd hrow (by simp [statesTables])
  dfaStates state hstate := by
    obtain rfl : state = ⟨none, []⟩ := by simpa [statesTables] using hstate
    exact ⟨nofun, nofun⟩
  lrStates state hstate := by
    obtain rfl := (Array.mem_replicate.1 hstate).2
    exact fun _ hrow => absurd hrow (by simp [LrState.empty])
  groups _ hrow := absurd hrow (by simp [statesTables])
  dfaInitial := show 0 < 1 by omega
  lrInitial := by simp [statesTables]

/-- The document is loaded, and the grammar can be written, however many states it has. -/
theorem exists_written_statesDocument (more : Nat) :
    ∃ grammar bytes, Grammar.ofDocument (statesDocument more) = .ok grammar ∧
      grammar.toBytes = .ok bytes ∧ grammar.sizes = (statesTables more).sizes := by
  obtain ⟨grammar, hlink⟩ : ∃ grammar, (statesTables more).link = .ok grammar := by
    refine ⟨_, Tables.link_eq_ok_iff.2 ⟨?_, 0, 1, rfl, rfl, rfl⟩⟩
    rw [renumber_statesTables]
    exact inRange_statesTables more
  have hload : Grammar.ofDocument (statesDocument more) = .ok grammar := by
    rw [Grammar.ofDocument, parse?_statesDocument, Option.bind_some, ofJson?_statesJson]
    exact hlink
  obtain ⟨bytes, hwritten⟩ : ∃ bytes, grammar.toBytes = .ok bytes := by
    have hdescribed := (rowsFit_statesTables more).described (renumber_statesTables more)
    rw [Grammar.toBytes, Tables.toRecords_of_link hlink, renumber_statesTables]
    exact ⟨_, fileBytes_encodable (by decide) hdescribed.encodable⟩
  have hsizes := Tables.sizes_of_link hlink
  rw [renumber_statesTables] at hsizes
  exact ⟨grammar, bytes, hload, hwritten, hsizes⟩

/-! ## Files of grammars -/

/-- The file of a grammar that was read from JSON is read back as the same grammar with the current
    header, if no table has more than 65535 rows. Otherwise it is refused at the first row of the
    first such table whose place is not below the declared size. -/
theorem Grammar.ofBytes_of_toBytes_ofDocument {document bytes : List UInt8} {grammar : Grammar}
    (h : ofDocument document = .ok grammar) (hwritten : grammar.toBytes = .ok bytes) :
    (grammar.oversized? = none → ofBytes bytes = .ok { grammar with header := formatHeader }) ∧
      ∀ table size, grammar.oversized? = some (table, size) →
        ofBytes bytes = .error (.indexOutOfRange table (UInt16.ofNat size) (size % 65536)) := by
  obtain ⟨tables, -, hlink⟩ := ofDocument_eq_ok h
  have hnumbered := tables.renumber_renumber
  rw [toBytes, Tables.toRecords_of_link hlink] at hwritten
  have hfits : tables.renumber.RowsFit :=
    Tables.rowsFit_of_fileBytes tables.indexed_renumber hwritten
  rw [Tables.oversized?, Tables.sizes_of_link hlink]
  constructor
  · intro hnone
    obtain ⟨written, hsame, hread⟩ :=
      Tables.ofBytes_fileBytes (Tables.fits_of_oversized? hfits hnone) hnumbered
    rw [hwritten] at hsame
    cases hsame
    rw [← Tables.link_renumber] at hlink
    exact hread.trans (Tables.link_header formatHeader hlink)
  · intro table size hoversized
    exact Tables.ofBytes_of_oversized? hfits hnumbered hoversized hwritten

/-- With 65535 more states than one, the file declares no state at all, and the first one is
    refused. -/
theorem Grammar.ofBytes_of_toBytes_statesDocument :
    ∃ grammar bytes, ofDocument (statesDocument 65535) = .ok grammar ∧
      grammar.toBytes = .ok bytes ∧ grammar.oversized? = some (.lrState, 65536) ∧
      ofBytes bytes = .error (.indexOutOfRange .lrState 0 0) := by
  obtain ⟨grammar, bytes, hload, hwritten, hsizes⟩ := exists_written_statesDocument 65535
  have hoversized : grammar.oversized? = some (.lrState, 65536) := by
    rw [Tables.oversized?, hsizes]
    simp [Tables.sizes, statesTables]
  have hrefused := (ofBytes_of_toBytes_ofDocument hload hwritten).2 _ _ hoversized
  exact ⟨grammar, bytes, hload, hwritten, hoversized, hrefused⟩

end GoldTables

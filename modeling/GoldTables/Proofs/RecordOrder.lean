import GoldTables.Proofs.RecordLayouts
import GoldTables.Proofs.SlotContents
import GoldTables.Proofs.WrittenGrammars

/-!
# The order of records in a file

Every record of a file that is loaded is read as its layout says, wherever in
the file it stands, if only the sizes of the tables come before the rows. So a
file with its records in another order is loaded as the same grammar, as long
as records with one address keep their order, and the last of these decides
what the grammar holds.

Results:
* `says_of_ofBytes`: what the records of a file that is loaded say.
* `Grammar.content?_of_foldlM`: what a grammar holds is what the last records said.
* `Grammar.ofBytes_perm`: files with the same records in different orders.
-/

namespace GoldTables

open RecordReader TableRecord

/-! ## What records say -/

/-- A record says something, and a reader finds it in every file: a row behind the sizes of the
    tables, and the other records anywhere. -/
def Says (entries : List Entry) (record : TableRecord) : Prop :=
  ofEntries? entries = some record ∧
    ∀ counted, (record.isRow = true → counted = true) → Describes counted entries record

theorem RecordKind.code_of_ofCode? {code : UInt8} {kind : RecordKind}
    (h : ofCode? code = some kind) : kind.code = code := by
  rw [ofCode?.eq_def] at h
  split at h <;> cases h <;> rfl

/-- A row is read behind the sizes of the tables only. -/
theorem isRow_of_readBody {counted : Bool} {record : TableRecord} {reader next : RecordReader}
    (h : readBody counted record.kind reader = .ok record next) :
    record.isRow = true → counted = true := by
  intro hrow
  cases counted with
  | true => rfl
  | false =>
    cases record with
    | property index value => cases hrow
    | tableCounts counts => cases hrow
    | initialStates dfa lr => cases hrow
    | _ => cases h

/-- Where a record may be read, it is read in one way. -/
theorem readBody_congr {record : TableRecord} {counted other : Bool}
    (h : record.isRow = true → counted = true) (hother : record.isRow = true → other = true) :
    readBody counted record.kind = readBody other record.kind := by
  cases record with
  | property index value => rfl
  | tableCounts counts => rfl
  | initialStates dfa lr => rfl
  | _ => rw [h rfl, hother rfl]

/-- A record that is read says what is read. -/
theorem says_of_readNext {counted : Bool} {entries left : List Entry} {record : TableRecord}
    {reader next : RecordReader} {rest : List UInt8} (hencodable : Encodable entries)
    (hreader : reader.Holds left (recordBytes entries ++ rest))
    (hleft : ∀ entry ∈ left, entry.isWritable = true)
    (h : readNext counted reader = .ok (some record) next) :
    Says entries record ∧
      ∃ behind, next.Holds behind rest ∧ ∀ entry ∈ behind, entry.isWritable = true := by
  obtain ⟨start, hstart, hholds⟩ := nextRecord_recordBytes hreader hleft hencodable.length_lt
  rw [readNext, run_bind hstart] at h
  simp only [if_true] at h
  obtain ⟨code, middle, hcode, h⟩ := bind_ok (get_bind_ok h)
  have hfaces : start.Faces entries rest := ⟨hholds, hencodable.isWritable⟩
  obtain ⟨body, rfl, hbody⟩ := hfaces.byte hcode
  cases hkind : RecordKind.ofCode? code with
  | none =>
    rw [hkind] at h
    cases h
  | some kind =>
    rw [hkind] at h
    obtain ⟨found, last, hfound, h⟩ := bind_ok h
    obtain ⟨hsame, rfl⟩ := pure_ok h
    obtain rfl : found = record := Option.some.inj hsame
    have hsaid := ofBody?_of_readBody hbody hfound
    obtain ⟨rfl, -⟩ := kind_of_ofBody? hsaid
    obtain ⟨behind, hbehind, hyields, -⟩ := regular_readBody counted found.kind body middle rest
      found last hbody.isWritable hbody.holds hfound
    have hwritable : ∀ entry ∈ behind, entry.isWritable = true :=
      fun entry hentry => hbody.isWritable entry (hbehind.subset hentry)
    refine ⟨⟨?_, ?_⟩, behind, (hyields.eq_of_ok hbody.holds hfound).2, hwritable⟩
    · rw [ofEntries?, hkind, Option.bind_some, hsaid]
    · intro other hother
      refine ⟨hencodable, found.kind, body, behind, ?_, hwritable, ?_⟩
      · rw [kindRecord, RecordKind.code_of_ofCode? hkind]
      · rw [readBody_congr hother (isRow_of_readBody hfound)]
        exact hyields

/-- A reader before a record does not come to an end. -/
theorem readNext_ne_none {counted : Bool} {entries left : List Entry} {reader next : RecordReader}
    {rest : List UInt8} (hencodable : Encodable entries)
    (hreader : reader.Holds left (recordBytes entries ++ rest))
    (hleft : ∀ entry ∈ left, entry.isWritable = true) :
    readNext counted reader ≠ .ok none next := by
  intro h
  obtain ⟨start, hstart, -⟩ := nextRecord_recordBytes hreader hleft hencodable.length_lt
  rw [readNext, run_bind hstart] at h
  simp only [if_true] at h
  obtain ⟨code, middle, -, h⟩ := bind_ok (get_bind_ok h)
  cases hkind : RecordKind.ofCode? code with
  | none =>
    rw [hkind] at h
    cases h
  | some kind =>
    rw [hkind] at h
    obtain ⟨found, last, -, h⟩ := bind_ok h
    cases (pure_ok h).1

theorem says_of_collectRecords {n : Nat} {counted : Bool} {done records : List TableRecord}
    {reader : RecordReader} {left : List Entry} {written : List (List Entry)}
    (hencodable : ∀ entries ∈ written, Encodable entries) (hn : written.length < n)
    (hreader : reader.Holds left (written.flatMap recordBytes))
    (hleft : ∀ entry ∈ left, entry.isWritable = true)
    (h : collectRecords n counted done reader = (records, none)) :
    ∀ entries ∈ written, ∃ record, Says entries record := by
  induction written generalizing n counted done reader left with
  | nil => exact fun _ hmem => absurd hmem List.not_mem_nil
  | cons entries written ih =>
    obtain ⟨hentries, hwritten⟩ := List.forall_mem_cons.1 hencodable
    obtain ⟨n, rfl⟩ : ∃ m, n = m + 1 := ⟨n - 1, by omega⟩
    rw [List.length_cons] at hn
    rw [List.flatMap_cons] at hreader
    rw [collectRecords] at h
    split at h
    · next hnext => exact absurd hnext (readNext_ne_none hentries hreader hleft)
    · next record next hnext =>
      obtain ⟨hsaid, behind, hholds, hbehind⟩ := says_of_readNext hentries hreader hleft hnext
      rw [List.forall_mem_cons]
      exact ⟨⟨record, hsaid⟩, ih hwritten (by omega) hholds hbehind h⟩
    · cases h

/-- Every record of a file that is loaded says something. -/
theorem says_of_ofBytes {header : String} {written : List (List Entry)} {grammar : Grammar}
    (hheader : hasNul header = false) (hencodable : ∀ entries ∈ written, Encodable entries)
    (h : Grammar.ofBytes (textBytes header ++ written.flatMap recordBytes) = .ok grammar) :
    ∀ entries ∈ written, ∃ record, Says entries record := by
  rw [Grammar.ofBytes_textBytes hheader] at h
  obtain ⟨tables, htables, -⟩ := except_bind_eq_ok.1 h
  obtain ⟨hfault, -⟩ := Tables.ofRecords_eq_ok_iff.1 htables
  exact says_of_collectRecords hencodable (length_lt_flatMap_recordBytes written)
    (holds_start header _) (by simp) (Prod.ext rfl hfault)

/-! ## Records in another order -/

/-- What records say. -/
def recordsOf (written : List (List Entry)) : List TableRecord := written.filterMap ofEntries?

/-- What a record puts where. -/
def fillingOf? (entries : List Entry) : Option (Address × Content) :=
  (ofEntries? entries).bind filling?

/-- The address of a record. -/
def addressOf? (entries : List Entry) : Option Address := (fillingOf? entries).map Prod.fst

/-- The content of a record. -/
def contentOf? (entries : List Entry) : Option Content := (fillingOf? entries).map Prod.snd

/-- The records with an address, in order. -/
def addressed (written : List (List Entry)) (address : Address) : List (List Entry) :=
  written.filter fun entries => addressOf? entries = some address

theorem isSome_contentOf? {written : List (List Entry)} {address : Address} {entries : List Entry}
    (h : entries ∈ addressed written address) : ∃ content, contentOf? entries = some content := by
  obtain ⟨-, haddress⟩ := List.mem_filter.1 h
  obtain ⟨filling, hfilling, -⟩ := Option.map_eq_some_iff.1 (of_decide_eq_true haddress)
  exact ⟨filling.2, by rw [contentOf?, hfilling, Option.map_some]⟩

/-- The content that the last record with an address puts there. -/
theorem lastAt_recordsOf (written : List (List Entry)) (address : Address) :
    lastAt ((recordsOf written).filterMap filling?) address =
      (addressed written address).getLast?.bind contentOf? := by
  rw [recordsOf, List.filterMap_filterMap]
  show lastAt (written.filterMap fillingOf?) address = _
  induction written with
  | nil => rfl
  | cons entries written ih =>
    have hsingle : lastAt ([entries].filterMap fillingOf?) address =
        (addressed [entries] address).getLast?.bind contentOf? := by
      cases hfilling : fillingOf? entries with
      | none => simp [addressed, addressOf?, hfilling, lastAt_nil]
      | some filling =>
        obtain ⟨other, content⟩ := filling
        by_cases hother : other = address
        · simp [addressed, addressOf?, contentOf?, hfilling, hother, lastAt_self]
        · simp [addressed, addressOf?, hfilling, hother, lastAt_of_ne]
    have happend : addressed ([entries] ++ written) address =
        addressed [entries] address ++ addressed written address :=
      List.filter_append _ _
    rw [← List.singleton_append, List.filterMap_append, lastAt_append, ih, hsingle, happend,
      List.getLast?_append]
    cases hlast : (addressed written address).getLast? with
    | none => rfl
    | some last =>
      obtain ⟨content, hcontent⟩ := isSome_contentOf? (List.mem_of_getLast? hlast)
      rw [Option.bind_some, Option.some_or, Option.bind_some, hcontent, Option.some_or]

/-- Rows stand behind a record of table sizes, if these are not known already. -/
def RowsCounted : Bool → List TableRecord → Prop
  | _, [] => True
  | counted, record :: records =>
    (record.isRow = true → counted = true) ∧ RowsCounted (counted || record.isTableCounts) records

theorem rowsCounted_true (records : List TableRecord) : RowsCounted true records := by
  induction records with
  | nil => trivial
  | cons record records ih => exact ⟨fun _ => rfl, ih⟩

theorem CountsFirst.rowsCounted {records : List TableRecord} (h : CountsFirst records) :
    RowsCounted false records := by
  obtain ⟨front, counts, behind, rfl, hcounts, hfront⟩ := h
  induction front with
  | nil => exact ⟨fun hrow => (by cases hrow), rowsCounted_true behind⟩
  | cons record front ih =>
    rw [List.cons_append, List.forall_mem_cons] at hcounts
    rw [List.forall_mem_cons] at hfront
    refine ⟨fun hrow => ?_, ?_⟩
    · rw [hfront.1] at hrow
      cases hrow
    · rw [hcounts.1]
      exact ih hcounts.2 hfront.2

/-- Records that say something are described in every order in which the rows are counted. -/
theorem described_recordsOf {counted : Bool} {written : List (List Entry)}
    (hsaid : ∀ entries ∈ written, ∃ record, Says entries record)
    (hrows : RowsCounted counted (recordsOf written)) :
    Described counted written (recordsOf written) := by
  induction written generalizing counted with
  | nil => exact .nil counted
  | cons entries written ih =>
    rw [List.forall_mem_cons] at hsaid
    obtain ⟨⟨record, hrecord, hdescribes⟩, hwritten⟩ := hsaid
    have hcons : recordsOf (entries :: written) = record :: recordsOf written := by
      rw [recordsOf, List.filterMap_cons, hrecord]
      rfl
    rw [hcons] at hrows ⊢
    exact .cons (hdescribes counted hrows.1) (ih hwritten hrows.2)

/-! ## Contents of grammars -/

/-- What tables hold at an address. -/
def Tables.content? (tables : Tables) : Address → Option Content
  | .property index => some (.text (tables.properties.value index))
  | .initialStates => some (.states tables.dfaInitial tables.lrInitial)
  | .row .symbol index => tables.symbols[index.toNat]?.map .symbol
  | .row .characterSet index => tables.characterSets[index.toNat]?.map .characterSet
  | .row .production index => tables.productions[index.toNat]?.map .production
  | .row .dfaState index => tables.dfaStates[index.toNat]?.map .dfaState
  | .row .lrState index => tables.lrStates[index.toNat]?.map .lrState
  | .row .group index => tables.groups[index.toNat]?.map .group

theorem Tables.content?_slots (tables : Tables) (table : Table) (index : UInt16) :
    tables.slots.content? table index = tables.content? (.row table index) := by
  have hjoin : ∀ {α : Type} (rows : Array α) (hold : α → Content),
      (rows.toList.map some).toArray[index.toNat]?.join.map hold =
        rows[index.toNat]?.map hold := by
    intro α rows hold
    rw [List.getElem?_toArray, List.getElem?_map, Array.getElem?_toList]
    cases rows[index.toNat]? <;> rfl
  cases table <;> exact hjoin _ _

/-- What tables hold is what their draft held. -/
theorem Draft.content?_finish {draft : Draft} {header : String} {tables : Tables}
    (h : draft.finish header = .ok tables) (address : Address) :
    tables.content? address = draft.content? address := by
  rw [draft.eq_of_finish h]
  cases address with
  | property index => rfl
  | initialStates => rfl
  | row table index => exact (tables.content?_slots table index).symm

/-- The content of a row under its own index; a symbol knows no group. -/
def Content.NumberedAt (index : UInt16) : Content → Prop
  | .symbol row => row.index = index ∧ row.group = none
  | .production row => row.index = index
  | .group row => row.index = index
  | _ => True

theorem TableRecord.Numbered.numberedAt {record : TableRecord} (h : record.Numbered)
    {table : Table} {index : UInt16} {content : Content}
    (hfilling : record.filling? = some (.row table index, content)) :
    content.NumberedAt index := by
  cases record with
  | property place value =>
    rw [filling?] at hfilling
    split at hfilling <;> cases hfilling
  | tableCounts counts => cases hfilling
  | initialStates dfa lr => cases hfilling
  | _ => cases hfilling; exact h

theorem mapIdx_eq_self {α : Type} {f : Nat → α → α} {rows : Array α}
    (h : ∀ i row, rows[i]? = some row → f i row = row) : rows.mapIdx f = rows := by
  apply Array.ext_getElem?
  intro i
  rw [Array.getElem?_mapIdx]
  cases hrow : rows[i]? with
  | none => rfl
  | some row => rw [Option.map_some, h i row hrow]

/-- Tables whose rows carry their places are numbered already. -/
theorem Tables.renumber_eq_self {tables : Tables} (hfits : tables.Fits)
    (h : ∀ table index content, tables.content? (.row table index) = some content →
      content.NumberedAt index) : tables.renumber = tables := by
  have hplace : ∀ {α : Type} {rows : Array α}, rows.size < 65536 → ∀ {i : Nat} {row : α},
      rows[i]? = some row → rows[(UInt16.ofNat i).toNat]? = some row := by
    intro α rows hsize i row hrow
    have hi := (Array.getElem?_eq_some_iff.1 hrow).1
    rw [UInt16.toNat_ofNat_of_lt' (Nat.lt_trans hi hsize)]
    exact hrow
  have hsymbols : tables.renumber.symbols = tables.symbols := by
    apply mapIdx_eq_self
    intro i row hrow
    have hcontent : tables.content? (.row .symbol (.ofNat i)) = some (.symbol row) := by
      rw [content?, hplace hfits.symbols.1 hrow, Option.map_some]
    obtain ⟨hindex, hgroup⟩ := h _ _ _ hcontent
    rw [← hindex, ← hgroup]
  have hproductions : tables.renumber.productions = tables.productions := by
    apply mapIdx_eq_self
    intro i row hrow
    have hcontent : tables.content? (.row .production (.ofNat i)) = some (.production row) := by
      rw [content?, hplace hfits.productions.1 hrow, Option.map_some]
    have hindex : row.index = .ofNat i := h _ _ _ hcontent
    rw [← hindex]
  have hgroups : tables.renumber.groups = tables.groups := by
    apply mapIdx_eq_self
    intro i row hrow
    have hcontent : tables.content? (.row .group (.ofNat i)) = some (.group row) := by
      rw [content?, hplace hfits.groups.1 hrow, Option.map_some]
    have hindex : row.index = .ofNat i := h _ _ _ hcontent
    rw [← hindex]
  have hlrStates : tables.renumber.lrStates = tables.lrStates := hfits.renumber_lrStates
  show { tables with
    symbols := tables.renumber.symbols
    productions := tables.renumber.productions
    lrStates := tables.renumber.lrStates
    groups := tables.renumber.groups } = tables
  rw [hsymbols, hproductions, hlrStates, hgroups]

/-- A content without what linking adds: a symbol knows no group. -/
def Content.unlinked : Content → Content
  | .symbol row => .symbol { row with group := none }
  | content => content

theorem Content.NumberedAt.unlinked {index : UInt16} {content : Content}
    (h : content.NumberedAt index) : content.unlinked = content := by
  cases content with
  | symbol row =>
    obtain ⟨rfl, hgroup⟩ := h
    rw [Content.unlinked, ← hgroup]
  | _ => rfl

/-- Linking adds nothing else. -/
theorem Tables.content?_linkGroups (tables : Tables) (address : Address) :
    (tables.linkGroups.content? address).map Content.unlinked =
      (tables.content? address).map Content.unlinked := by
  cases address with
  | property index => rfl
  | initialStates => rfl
  | row table index =>
    cases table with
    | symbol =>
      show (Option.map Content.symbol (tables.linkGroups.symbol? index)).map Content.unlinked =
        (Option.map Content.symbol (tables.symbol? index)).map Content.unlinked
      rw [Option.map_map, Option.map_map]
      exact map_symbol?_linkGroups (Content.unlinked ∘ Content.symbol) (fun _ _ => rfl) tables index
    | _ => rfl

/-- Linking numbered tables changes nothing that they hold. -/
theorem Grammar.content?_of_link {tables : Tables} {grammar : Grammar} (hfits : tables.Fits)
    (hnumbered : ∀ table index content, tables.content? (.row table index) = some content →
      content.NumberedAt index)
    (hlink : tables.link = .ok grammar) (address : Address) :
    (grammar.content? address).map Content.unlinked = tables.content? address := by
  obtain ⟨-, _, _, -, -, rfl⟩ := Tables.link_eq_ok_iff.1 hlink
  rw [Tables.content?_linkGroups, Tables.renumber_eq_self hfits hnumbered]
  cases address with
  | property index => rfl
  | initialStates => rfl
  | row table index =>
    cases hcontent : tables.content? (.row table index) with
    | none => rfl
    | some content => rw [Option.map_some, (hnumbered table index content hcontent).unlinked]

/-- Records that are entered and linked leave their contents in the grammar. -/
theorem Grammar.content?_of_foldlM {header : String} {written : List (List Entry)}
    {draft : Draft} {tables : Tables} {grammar : Grammar}
    (hcounts : CountsFirst (recordsOf written))
    (hfold : (recordsOf written).foldlM Draft.add Draft.empty = .ok draft)
    (hfinish : draft.finish header = .ok tables) (hfits : tables.Fits)
    (hlink : tables.link = .ok grammar) (address : Address) :
    (grammar.content? address).map Content.unlinked =
      ((addressed written address).getLast?.bind contentOf?).or (Draft.empty.content? address) := by
  obtain ⟨front, counts, behind, hsplit, htablecounts, hfront⟩ := hcounts
  have hdraft := ((foldlM_countsFirst hsplit htablecounts hfront).2 draft hfold).2
  -- a row is described under its own index, so numbering changes nothing
  have hnumbered : ∀ table index content, tables.content? (.row table index) = some content →
      content.NumberedAt index := by
    intro table index content hrow
    rw [draft.content?_finish hfinish, hdraft] at hrow
    have hlast : lastAt ((recordsOf written).filterMap filling?) (.row table index) =
        some content := by
      rw [← hrow]
      exact (Option.or_none).symm
    obtain ⟨record, hrecord, hfilling⟩ := List.mem_filterMap.1 (mem_of_lastAt hlast)
    obtain ⟨entries, -, hentries⟩ := List.mem_filterMap.1 hrecord
    exact (numbered_of_ofEntries? hentries).numberedAt hfilling
  rw [content?_of_link hfits hnumbered hlink, draft.content?_finish hfinish, hdraft,
    lastAt_recordsOf]

/-! ## Files in another order -/

/-- A file that is loaded, with one record of table sizes in front of all rows, can have its records
    in any order that keeps this record in front of the rows and keeps the order of records with one
    address: it is loaded as the same grammar. And at each address the grammar holds the content of
    the last record with that address. -/
theorem Grammar.ofBytes_perm {header : String} {written : List (List Entry)} {bytes : List UInt8}
    {grammar : Grammar} (hbytes : fileBytes header written = .ok bytes)
    (hcounts : CountsFirst (recordsOf written)) (hload : ofBytes bytes = .ok grammar) :
    (∀ permuted : List (List Entry), permuted.Perm written → CountsFirst (recordsOf permuted) →
        (∀ address, addressed permuted address = addressed written address) →
          ∃ other, fileBytes header permuted = .ok other ∧ ofBytes other = .ok grammar) ∧
      ∀ address, (grammar.content? address).map Content.unlinked =
        ((addressed written address).getLast?.bind contentOf?).or
          (Draft.empty.content? address) := by
  obtain ⟨hheader, hencodable, rfl⟩ := fileBytes_eq_ok_iff.1 hbytes
  have hsaid := says_of_ofBytes hheader hencodable hload
  have hdescribed := described_recordsOf hsaid hcounts.rowsCounted
  rw [ofBytes_described hheader hdescribed] at hload
  obtain ⟨tables, htables, hlink⟩ := except_bind_eq_ok.1 hload
  have hfits : tables.Fits := by
    refine fits_of_ofRecords (fun record hrecord => ?_) htables
    have hmem : record ∈ (tableRecords (start header (written.flatMap recordBytes))).1 := by
      rw [tableRecords_described header hdescribed]
      exact hrecord
    exact fits_of_mem_tableRecords hmem
  obtain ⟨-, draft, hfold, hfinish⟩ := Tables.ofRecords_eq_ok_iff.1 htables
  refine ⟨?_, content?_of_foldlM hcounts hfold hfinish hfits hlink⟩
  intro permuted hperm hpermuted horder
  have hsaidagain : ∀ entries ∈ permuted, ∃ record, Says entries record :=
    fun entries hentries => hsaid entries (hperm.subset hentries)
  have hdescribedagain := described_recordsOf hsaidagain hpermuted.rowsCounted
  refine ⟨_, fileBytes_encodable hheader hdescribedagain.encodable, ?_⟩
  have hfoldagain := foldlM_perm (hperm.filterMap ofEntries?) hcounts hpermuted
    (fun address => by
      show lastAt ((recordsOf permuted).filterMap filling?) address =
        lastAt ((recordsOf written).filterMap filling?) address
      rw [lastAt_recordsOf, lastAt_recordsOf, horder]) hfold
  rw [ofBytes_described hheader hdescribedagain]
  exact except_bind_eq_ok.2
    ⟨tables, Tables.ofRecords_eq_ok_iff.2 ⟨rfl, draft, hfoldagain, hfinish⟩, hlink⟩

/-- Only the addresses of the records matter for their order. -/
theorem addressed_eq_of_mem {written permuted : List (List Entry)}
    (h : ∀ address ∈ (permuted ++ written).filterMap addressOf?,
      addressed permuted address = addressed written address) (address : Address) :
    addressed permuted address = addressed written address := by
  by_cases hmem : address ∈ (permuted ++ written).filterMap addressOf?
  · exact h address hmem
  · have hnone : ∀ entries ∈ permuted ++ written, ¬decide (addressOf? entries = some address) := by
      intro entries hentries haddress
      exact hmem (List.mem_filterMap.2 ⟨entries, hentries, of_decide_eq_true haddress⟩)
    rw [List.forall_mem_append] at hnone
    rw [addressed, addressed, List.filter_eq_nil_iff.2 hnone.1, List.filter_eq_nil_iff.2 hnone.2]

/-- A file with a property and a symbol that are described twice. -/
def repeatedRecords : List (List Entry) := [
  kindRecord .property [.uint16 0, .string "Name", .string "Draft"],
  kindRecord .property [.uint16 0, .string "Name", .string "Empty"],
  kindRecord .tableCounts [.uint16 2, .uint16 0, .uint16 0, .uint16 1, .uint16 1, .uint16 0],
  kindRecord .symbol [.uint16 0, .string "EOF", .uint16 3],
  kindRecord .symbol [.uint16 1, .string "Error", .uint16 2],
  kindRecord .symbol [.uint16 1, .string "Error", .uint16 7],
  kindRecord .dfaState [.uint16 0, .boolean false, .uint16 0, .empty],
  kindRecord .lrState [.uint16 0, .empty],
  kindRecord .initialStates [.uint16 0, .uint16 0]]

/-- The same records in another order. -/
def shuffledRecords : List (List Entry) := [
  kindRecord .initialStates [.uint16 0, .uint16 0],
  kindRecord .property [.uint16 0, .string "Name", .string "Draft"],
  kindRecord .tableCounts [.uint16 2, .uint16 0, .uint16 0, .uint16 1, .uint16 1, .uint16 0],
  kindRecord .lrState [.uint16 0, .empty],
  kindRecord .symbol [.uint16 1, .string "Error", .uint16 2],
  kindRecord .dfaState [.uint16 0, .boolean false, .uint16 0, .empty],
  kindRecord .property [.uint16 0, .string "Name", .string "Empty"],
  kindRecord .symbol [.uint16 1, .string "Error", .uint16 7],
  kindRecord .symbol [.uint16 0, .string "EOF", .uint16 3]]

theorem countsFirst_repeatedRecords : CountsFirst (recordsOf repeatedRecords) :=
  ⟨recordsOf (repeatedRecords.take 2), ⟨2, 0, 0, 1, 1, 0⟩, recordsOf (repeatedRecords.drop 3), rfl,
    by decide, by decide⟩

theorem countsFirst_shuffledRecords : CountsFirst (recordsOf shuffledRecords) :=
  ⟨recordsOf (shuffledRecords.take 2), ⟨2, 0, 0, 1, 1, 0⟩, recordsOf (shuffledRecords.drop 3), rfl,
    by decide, by decide⟩

theorem Grammar.ofBytes_perm_shuffledRecords :
    ∃ bytes grammar other, fileBytes "Any header" repeatedRecords = .ok bytes ∧
      ofBytes bytes = .ok grammar ∧
      fileBytes "Any header" shuffledRecords = .ok other ∧ ofBytes other = .ok grammar ∧
      (grammar.content? (.row .symbol 1)).map Content.unlinked =
        some (.symbol ⟨1, "Error", .error, none⟩) := by
  have hbytes : fileBytes "Any header" repeatedRecords =
      .ok (textBytes "Any header" ++ repeatedRecords.flatMap recordBytes) := by decide +kernel
  have hpasses : passes (textBytes "Any header" ++ repeatedRecords.flatMap recordBytes)
      (fun _ => true) = true := by decide +kernel
  have hperm : shuffledRecords.Perm repeatedRecords := by decide +kernel
  have horder : ∀ address ∈ (shuffledRecords ++ repeatedRecords).filterMap addressOf?,
      addressed shuffledRecords address = addressed repeatedRecords address := by decide +kernel
  obtain ⟨grammar, hload, -⟩ := exists_of_passes hpasses
  obtain ⟨hpermuted, hcontent⟩ := ofBytes_perm hbytes countsFirst_repeatedRecords hload
  obtain ⟨other, hother, hagain⟩ :=
    hpermuted shuffledRecords hperm countsFirst_shuffledRecords (addressed_eq_of_mem horder)
  exact ⟨_, grammar, other, hbytes, hload, hother, hagain, hcontent (.row .symbol 1)⟩

end GoldTables

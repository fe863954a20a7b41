import GoldTables.Proofs.RecordOrder

/-!
# Files that end too early

A file whose records say something may be cut anywhere. Between two records
the cut is not seen by the reader, which finds the records in front of it;
anywhere else the bytes run out inside a text or an entry. What is missing
after a cut between records is then found by the draft: the sizes of the
tables, or the last parser state, which is written last.

Results:
* `readNext_cut`: the next record, if the bytes end inside of it.
* `Grammar.ofBytes_cut`: a file that is cut inside the header or a record.
* `Draft.finish_of_missing`: a draft with a row that nothing filled.
* `Grammar.ofBytes_of_isPrefix`: a file of a grammar, cut anywhere.
-/

namespace GoldTables

open RecordReader TableRecord

/-! ## Records that are cut -/

namespace RecordReader

variable {reader : RecordReader} {left : List Entry}

/-- Entries that were left unread and are cut short cannot be skipped. -/
theorem CutShort.starves_skipEntries (h : reader.CutShort left)
    (hleft : ∀ entry ∈ left, entry.isWritable = true) :
    Starves (skipEntries left.length) reader := by
  induction left generalizing reader with
  | nil => exact absurd rfl h.ne_nil
  | cons entry left ih =>
    obtain ⟨hentry, hleft⟩ := List.forall_mem_cons.1 hleft
    rcases h.readEntry hentry with hstarves | ⟨middle, hmiddle, hcut⟩
    · exact hstarves.bind _
    · exact .of_bind hmiddle (ih hcut hleft)

theorem CutShort.starves_nextRecord (h : reader.CutShort left)
    (hleft : ∀ entry ∈ left, entry.isWritable = true) : Starves nextRecord reader := by
  have hlength : reader.entryCount.toNat - reader.entriesRead.toNat = left.length := by
    have hcount := h.count
    omega
  unfold nextRecord Starves
  rw [run_get_bind, hlength]
  exact (h.starves_skipEntries hleft).bind _

/-- The start of the next record, if the bytes end inside of it. -/
theorem nextRecord_cut {entries : List Entry} {piece missing : List UInt8}
    (hreader : reader.Holds left piece) (hleft : ∀ entry ∈ left, entry.isWritable = true)
    (hlength : entries.length < 65536) (hpiece : piece ≠ []) (hmissing : missing ≠ [])
    (hcut : piece ++ missing = recordBytes entries) :
    Starves nextRecord reader ∨
      ∃ next, nextRecord reader = .ok true next ∧ next.CutShort entries := by
  obtain ⟨middle, hskip, hmiddle⟩ := hreader.skipEntries hleft
  have hrest : middle.rest = piece := hmiddle.bytes
  cases piece with
  | nil => exact absurd rfl hpiece
  | cons tag part =>
    rw [recordBytes, List.cons_append, List.cons_append] at hcut
    obtain ⟨rfl, hpart⟩ := List.cons.inj hcut
    have hopen : ¬middle.atEnd = true := by rw [atEnd, hrest]; exact Bool.false_ne_true
    have hrun : nextRecord reader = (do
        let entryCount ← rawWord
        modify fun reader => { reader with entryCount, entriesRead := 0 }
        return true : ReadM Bool) { middle with rest := part, offset := middle.offset + 1 } := by
      unfold nextRecord
      rw [run_get_bind, hreader.length_eq, run_bind hskip, run_get_bind, if_neg hopen,
        run_get_bind, run_bind (rawByte_cons hrest)]
      simp only [ne_eq, not_true_eq_false, if_false]
    unfold Starves
    rw [hrun]
    rcases append_cut hpart with ⟨lost, hlost, hword⟩ | ⟨more, rfl, hmore⟩
    · exact Or.inl ((starves_rawWord rfl hlost hword).bind _)
    · refine Or.inr ⟨{ middle with
        rest := more
        offset := middle.offset + 1 + 2
        entryCount := UInt16.ofNat entries.length
        entriesRead := 0 }, ?_, ⟨missing, hmissing, hmore⟩, ?_⟩
      · rw [run_bind (rawWord_wordBytes rfl)]
        rfl
      · show 0 + entries.length = (UInt16.ofNat entries.length).toNat
        rw [UInt16.toNat_ofNat_of_lt' hlength, Nat.zero_add]

end RecordReader

/-- The next record, if the bytes end inside of it: they run out while it is read, or among the
    entries behind what it says. -/
theorem readNext_cut {counted : Bool} {entries left : List Entry} {record : TableRecord}
    {reader : RecordReader} {piece missing : List UInt8} (h : Describes counted entries record)
    (hreader : reader.Holds left piece) (hleft : ∀ entry ∈ left, entry.isWritable = true)
    (hpiece : piece ≠ []) (hmissing : missing ≠ [])
    (hcut : piece ++ missing = recordBytes entries) :
    Starves (readNext counted) reader ∨ ∃ next behind,
      readNext counted reader = .ok (some record) next ∧ next.CutShort behind ∧
        ∀ entry ∈ behind, entry.isWritable = true := by
  obtain ⟨hencodable, kind, body, behind, rfl, -, hbody⟩ := h
  have hwritable : ∀ entry ∈ body, entry.isWritable = true :=
    fun entry hentry => hencodable.isWritable entry (List.mem_cons_of_mem _ hentry)
  -- a reader before the whole body shows that the step is regular there
  have hlength : body.length < 65536 := Nat.lt_of_succ_lt hencodable.length_lt
  have hwhole : Holds ⟨"", body.flatMap Entry.bytes, 0, UInt16.ofNat body.length, 0⟩ body [] := by
    refine ⟨(List.append_nil _).symm, ?_⟩
    show 0 + body.length = (UInt16.ofNat body.length).toNat
    rw [UInt16.toNat_ofNat_of_lt' hlength, Nat.zero_add]
  obtain ⟨last, hlast, -⟩ := hbody _ [] hwhole
  obtain ⟨behind, hbehind, -, hbodycut⟩ :=
    regular_readBody counted kind body _ [] record last hwritable hwhole hlast
  rcases nextRecord_cut hreader hleft hencodable.length_lt hpiece hmissing hcut with
    hstarves | ⟨start, hstart, hstartcut⟩
  · exact Or.inl (hstarves.bind _)
  · have hbyte : YieldsCut readByte (kindRecord kind body) kind.code body :=
      .typed (fun _ hcut => hcut.readEntry rfl) rfl
    unfold Starves readNext
    rw [run_bind hstart]
    simp only [if_true]
    rw [run_get_bind]
    rcases hbyte start hstartcut with hstarves | ⟨middle, hmiddle, hmiddlecut⟩
    · exact Or.inl (hstarves.bind _)
    · rw [run_bind hmiddle, RecordKind.ofCode?_code]
      rcases hbodycut middle hmiddlecut with hstarves | ⟨next, hnext, hnextcut⟩
      · exact Or.inl (hstarves.bind _)
      · refine Or.inr ⟨next, behind, ?_, hnextcut,
          fun entry hentry => hwritable entry (hbehind.subset hentry)⟩
        exact run_bind hnext

/-! ## Files that are cut -/

/-- A prefix of a list in parts ends between two parts, or inside of one. -/
theorem exists_part_of_isPrefix {α β : Type} {parts : α → List β} {values : List α}
    {start : List β} (h : start <+: values.flatMap parts) :
    (∃ front, front <+: values ∧ start = front.flatMap parts) ∨
      ∃ front value behind piece missing, values = front ++ value :: behind ∧
        start = front.flatMap parts ++ piece ∧ piece ++ missing = parts value ∧
          piece ≠ [] ∧ missing ≠ [] := by
  obtain ⟨rest, hrest⟩ := h
  induction values generalizing start with
  | nil =>
    obtain ⟨rfl, -⟩ := List.append_eq_nil_iff.1 hrest
    exact Or.inl ⟨[], List.nil_prefix, rfl⟩
  | cons value values ih =>
    rw [List.flatMap_cons] at hrest
    rcases append_cut hrest with ⟨lost, hlost, hpiece⟩ | ⟨more, rfl, hmore⟩
    · by_cases hnone : start = []
      · exact Or.inl ⟨[], List.nil_prefix, hnone⟩
      · exact Or.inr ⟨[], value, values, start, lost, rfl, rfl, hpiece, hnone, hlost⟩
    · rcases ih hmore with ⟨front, hfront, rfl⟩ |
        ⟨front, other, behind, piece, missing, rfl, rfl, hpiece, hnone, hmissing⟩
      · refine Or.inl ⟨value :: front, List.cons_prefix_cons.2 ⟨rfl, hfront⟩, ?_⟩
        rw [List.flatMap_cons]
      · refine Or.inr ⟨value :: front, other, behind, piece, missing, rfl, ?_, hpiece, hnone,
          hmissing⟩
        rw [List.flatMap_cons, List.append_assoc]

/-- What a part of the records says. -/
theorem Described.of_append {counted : Bool} {front behind : List (List Entry)}
    {records : List TableRecord} (h : Described counted (front ++ behind) records) :
    ∃ first second, records = first ++ second ∧ first.length = front.length ∧
      Described counted front first ∧
        Described (counted || first.any TableRecord.isTableCounts) behind second := by
  induction front generalizing counted records with
  | nil => exact ⟨[], records, rfl, rfl, .nil counted, by simpa using h⟩
  | cons entries front ih =>
    cases h with
    | cons head tail =>
      obtain ⟨first, second, rfl, hlength, hfirst, hsecond⟩ := ih tail
      refine ⟨_ :: first, second, rfl, by simp [hlength], .cons head hfirst, ?_⟩
      rw [List.any_cons, ← Bool.or_assoc]
      exact hsecond

/-- Records in front of one that is cut are read, and that one perhaps, before the bytes run
    out. -/
theorem collectRecords_cut {counted : Bool} {front : List (List Entry)} {entries left : List Entry}
    {records done : List TableRecord} {record : TableRecord} {reader : RecordReader}
    {piece missing : List UInt8} {n : Nat} (h : Described counted front records)
    (hentries : Describes (counted || records.any TableRecord.isTableCounts) entries record)
    (hn : front.length + 1 < n) (hreader : reader.Holds left (front.flatMap recordBytes ++ piece))
    (hleft : ∀ entry ∈ left, entry.isWritable = true) (hpiece : piece ≠ [])
    (hmissing : missing ≠ []) (hcut : piece ++ missing = recordBytes entries) :
    ∃ read offset, read <+: records ++ [record] ∧
      collectRecords n counted done reader =
        (done.reverse ++ read, some (.io offset .truncated)) := by
  obtain ⟨n, rfl⟩ : ∃ m, n = m + 1 := ⟨n - 1, by omega⟩
  induction h generalizing n done reader left with
  | nil counted =>
    rw [List.any_nil, Bool.or_false] at hentries
    rcases readNext_cut hentries hreader hleft hpiece hmissing hcut with
      ⟨offset, last, hfault⟩ | ⟨next, behind, hnext, hnextcut, hbehind⟩
    · refine ⟨[], offset, List.nil_prefix, ?_⟩
      rw [collectRecords, hfault, List.append_nil]
    · obtain ⟨offset, last, hfault⟩ : Starves (readNext (counted || record.isTableCounts)) next :=
        (hnextcut.starves_nextRecord hbehind).bind _
      obtain ⟨n, rfl⟩ : ∃ m, n = m + 1 := ⟨n - 1, by omega⟩
      refine ⟨[record], offset, List.prefix_refl _, ?_⟩
      rw [collectRecords, hnext]
      simp only
      rw [collectRecords, hfault, List.reverse_cons]
  | cons head tail ih =>
    rw [List.flatMap_cons, List.append_assoc] at hreader
    obtain ⟨next, behind, hnext, hholds, hbehind⟩ := head.readNext hreader hleft
    rw [List.length_cons] at hn
    obtain ⟨n, rfl⟩ : ∃ m, n = m + 1 := ⟨n - 1, by omega⟩
    rw [List.any_cons, ← Bool.or_assoc] at hentries
    obtain ⟨read, offset, hread, hfault⟩ := ih hentries hholds hbehind n (by omega)
    refine ⟨_ :: read, offset, List.cons_prefix_cons.2 ⟨rfl, hread⟩, ?_⟩
    rw [collectRecords, hnext]
    simp only
    rw [hfault, List.reverse_cons, List.append_assoc, List.singleton_append]

/-- The first ones of records that can be entered can be entered. -/
theorem exists_foldlM_of_isPrefix {first records : List TableRecord} {start draft : Draft}
    (hfirst : first <+: records) (h : records.foldlM Draft.add start = .ok draft) :
    ∃ middle, first.foldlM Draft.add start = .ok middle := by
  obtain ⟨second, rfl⟩ := hfirst
  rw [List.foldlM_append] at h
  obtain ⟨middle, hmiddle, -⟩ := except_bind_eq_ok.1 h
  exact ⟨middle, hmiddle⟩

/-- The bytes of a file run out if it is cut anywhere but behind the header or a record. -/
theorem Grammar.ofBytes_cut {header : String} {written : List (List Entry)}
    {records : List TableRecord} {draft : Draft} {cut : List UInt8}
    (hheader : hasNul header = false) (h : Described false written records)
    (hfold : records.foldlM Draft.add Draft.empty = .ok draft)
    (hcut : cut <+: textBytes header ++ written.flatMap recordBytes) :
    (∃ front, front <+: written ∧ cut = textBytes header ++ front.flatMap recordBytes) ∨
      ∃ offset, ofBytes cut = .error (.io offset .truncated) := by
  obtain ⟨missing, hmissing⟩ := hcut
  rcases append_cut hmissing with ⟨lost, hlost, htext⟩ | ⟨part, rfl, hpart⟩
  · obtain ⟨offset, last, hfault⟩ : Starves rawText ⟨"", cut, 0, 0, 0⟩ :=
      starves_rawText hheader hlost htext
    refine Or.inr ⟨offset, ?_⟩
    rw [ofBytes, open?, hfault]
    rfl
  · rcases exists_part_of_isPrefix ⟨missing, hpart⟩ with ⟨front, hfront, rfl⟩ |
      ⟨front, entries, behind, piece, lost, rfl, rfl, hpiece, hnone, hlost⟩
    · exact Or.inl ⟨front, hfront, rfl⟩
    · right
      obtain ⟨first, second, rfl, -, hfirst, hsecond⟩ := h.of_append
      cases hsecond with
      | @cons _ _ record _ others head tail =>
        have hlength : front.length + 1 < (front.flatMap recordBytes ++ piece).length + 1 := by
          have hfrontlength := length_lt_flatMap_recordBytes front
          have hpiecelength := List.length_pos_iff.2 hnone
          rw [List.length_append]
          omega
        obtain ⟨read, offset, hread, hrecords⟩ := collectRecords_cut hfirst head hlength
          (holds_start header _) (by simp) hnone hlost hpiece
        refine ⟨offset, ?_⟩
        have hinitial : read <+: first ++ record :: others := by
          refine hread.trans ⟨others, ?_⟩
          rw [List.append_assoc, List.singleton_append]
        obtain ⟨middle, hmiddle⟩ := exists_foldlM_of_isPrefix hinitial hfold
        have htables : tableRecords (start header (front.flatMap recordBytes ++ piece)) =
            (read, some (.io offset .truncated)) := hrecords
        rw [ofBytes_textBytes hheader, htables, Tables.ofRecords, hmiddle]
        rfl

/-! ## Drafts with missing rows -/

/-- A table is not finished if a row is missing, and then the tables behind it are not looked at. -/
theorem missingEntry_of_bind {α β : Type} {table : Table} {slots : Array (Option α)}
    {next : Array α → Except LoadError β} {fault : LoadError}
    (h : filledRows table slots >>= next = .error fault)
    (hnext : ∀ rows, next rows = .error fault → ∃ table index, fault = .missingEntry table index) :
    ∃ table index, fault = .missingEntry table index := by
  cases hrows : filledRows table slots with
  | ok rows =>
    rw [hrows] at h
    exact hnext rows h
  | error other =>
    rw [hrows] at h
    cases h
    rw [filledRows] at hrows
    split at hrows
    · next index _ =>
      cases hrows
      exact ⟨table, index, rfl⟩
    · cases hrows

/-- All rows of tables hold something. -/
theorem Tables.isSome_content? {tables : Tables} {table : Table} {index : UInt16}
    (h : index.toNat < tables.slots.size table) :
    (tables.content? (.row table index)).isSome = true := by
  cases table <;> simpa [Tables.content?, Tables.slots, Slots.size] using h

namespace Draft

variable {draft : Draft} {header : String}

/-- A draft that knows the sizes of its tables has no fault but a missing row. -/
theorem missingEntry_of_finish {table : Table} {size : Nat} {fault : LoadError}
    (hsize : draft.size? table = some size) (h : draft.finish header = .error fault) :
    ∃ table index, fault = .missingEntry table index := by
  obtain ⟨slots, hslots, -⟩ := Option.map_eq_some_iff.1 hsize
  rw [finish, hslots] at h
  refine missingEntry_of_bind h fun _ h => missingEntry_of_bind h fun _ h =>
    missingEntry_of_bind h fun _ h => missingEntry_of_bind h fun _ h =>
      missingEntry_of_bind h fun _ h => missingEntry_of_bind h fun _ h => ?_
  cases h

/-- A draft with a row that nothing filled is not finished. -/
theorem finish_of_missing {table : Table} {size : Nat} {index : UInt16}
    (hsize : draft.size? table = some size) (hindex : index.toNat < size)
    (hnone : draft.content? (.row table index) = none) (header : String) :
    ∃ table index, draft.finish header = .error (.missingEntry table index) := by
  cases hfinish : draft.finish header with
  | ok tables =>
    rw [← content?_finish hfinish] at hnone
    rw [eq_of_finish hfinish] at hsize
    obtain rfl : tables.slots.size table = size := Option.some.inj hsize
    have hsome := Tables.isSome_content? hindex
    rw [hnone] at hsome
    cases hsome
  | error fault =>
    obtain ⟨table, index, rfl⟩ := missingEntry_of_finish hsize hfinish
    exact ⟨table, index, rfl⟩

theorem finish_of_size? {table : Table} (h : draft.size? table = none) (header : String) :
    draft.finish header = .error (.tableCountsMissing none) := by
  rw [finish, Option.map_eq_none_iff.1 h]

end Draft

/-! ## Files of grammars that are cut -/

/-- The addresses of rows in order. -/
theorem Column.Holds.exists_place {α : Type} {column : Column α} {hold : α → Content}
    (h : column.Holds hold) {rows : List α} {record : TableRecord}
    (hrecord : record ∈ column.recordsFrom 0 rows) :
    ∃ i content, i < rows.length ∧
      record.filling? = some (.row column.table (.ofNat i), content) := by
  obtain ⟨⟨row, i⟩, hrow, rfl⟩ := List.mem_map.1 hrecord
  obtain ⟨-, hi, -⟩ := List.mem_zipIdx hrow
  rw [Nat.zero_add] at hi
  exact ⟨i, hold row, hi, h.filling _ _⟩

theorem TableRecord.isTableCounts_of_filling? {record : TableRecord} {filling : Address × Content}
    (h : record.filling? = some filling) : record.isTableCounts = false := by
  cases record with
  | tableCounts counts => cases h
  | _ => rfl

namespace Tables

variable {tables : Tables}

/-- The address of the last parser state. -/
def lastState (tables : Tables) : Address := .row .lrState (.ofNat (tables.lrStates.size - 1))

theorem ne_lastState {α : Type} {column : Column α} {hold : α → Content} (h : column.Holds hold)
    (hne : column.table ≠ .lrState) {rows : List α} {record : TableRecord}
    (hrecord : record ∈ column.recordsFrom 0 rows) :
    ∃ filling, record.filling? = some filling ∧ filling.1 ≠ tables.lastState := by
  obtain ⟨i, content, -, hfilling⟩ := h.exists_place hrecord
  refine ⟨_, hfilling, fun heq => hne ?_⟩
  injection heq

/-- The last parser state is described by the last record only. -/
theorem describe_eq (hlt : tables.lrStates.size < 65536) (hpos : 0 < tables.lrStates.size) :
    ∃ rest last, tables.describe =
        tables.properties.describe ++ .tableCounts tables.counts :: (rest ++ [last]) ∧
      ∀ record ∈ rest, ∃ filling, record.filling? = some filling ∧
        filling.1 ≠ tables.lastState := by
  obtain ⟨states, last, hstates⟩ : ∃ states last, tables.lrStates.toList = states ++ [last] := by
    rcases List.eq_nil_or_concat tables.lrStates.toList with hnil | ⟨states, last, hstates⟩
    · rw [← Array.length_toList, hnil] at hpos
      exact absurd hpos (Nat.lt_irrefl 0)
    · exact ⟨states, last, by rw [hstates, List.concat_eq_append]⟩
  have hsize : tables.lrStates.size = states.length + 1 := by
    rw [← Array.length_toList, hstates, List.length_append, List.length_singleton]
  refine ⟨.initialStates tables.dfaInitial tables.lrInitial ::
      (Column.characterSets.recordsFrom 0 tables.characterSets.toList ++
        (Column.symbols.recordsFrom 0 tables.symbols.toList ++
          (Column.groups.recordsFrom 0 tables.groups.toList ++
            (Column.productions.recordsFrom 0 tables.productions.toList ++
              (Column.dfaStates.recordsFrom 0 tables.dfaStates.toList ++
                Column.lrStates.recordsFrom 0 states))))),
    .lrState (.ofNat states.length) last, ?_, ?_⟩
  · rw [describe, hstates, Column.recordsFrom_append, Nat.zero_add]
    simp only [List.append_assoc, List.cons_append, List.nil_append]
    rfl
  · simp only [List.forall_mem_cons, List.forall_mem_append]
    refine ⟨⟨_, rfl, by simp [lastState]⟩,
      fun _ => ne_lastState Column.characterSets_holds (by decide),
      fun _ => ne_lastState Column.symbols_holds (by decide),
      fun _ => ne_lastState Column.groups_holds (by decide),
      fun _ => ne_lastState Column.productions_holds (by decide),
      fun _ => ne_lastState Column.dfaStates_holds (by decide), ?_⟩
    intro record hrecord
    obtain ⟨i, content, hi, hfilling⟩ := Column.lrStates_holds.exists_place hrecord
    refine ⟨_, hfilling, fun heq => ?_⟩
    have hplace : (UInt16.ofNat i).toNat = (UInt16.ofNat (tables.lrStates.size - 1)).toNat := by
      injection heq with _ hindex
      rw [hindex]
    rw [UInt16.toNat_ofNat_of_lt' (show i < 65536 by omega),
      UInt16.toNat_ofNat_of_lt' (show tables.lrStates.size - 1 < 65536 by omega)] at hplace
    omega

theorem length_toRecords_properties (properties : Properties) :
    properties.toRecords.length = 8 := by
  simp [Properties.toRecords, Properties.toList]

theorem length_describe_properties (properties : Properties) :
    properties.describe.length = 8 := by
  simp [Properties.describe, Properties.toList]

theorem exists_property {properties : Properties} {record : TableRecord}
    (h : record ∈ properties.describe) : ∃ index value, record = .property index value := by
  obtain ⟨_, -, rfl⟩ := List.mem_map.1 h
  exact ⟨_, _, rfl⟩

/-- The sizes of the tables are not written among the properties. -/
theorem countsRecord_not_mem (tables : Tables) (properties : Properties) :
    tables.countsRecord ∉ properties.toRecords := by
  intro hmem
  obtain ⟨_, -, heq⟩ := List.mem_map.1 hmem
  have hcode := (List.cons.inj heq).1
  cases hcode

/-- The record of the sizes of the tables is the ninth one. -/
theorem countsRecord_mem_iff {front : List (List Entry)} (hfront : front <+: tables.toRecords) :
    tables.countsRecord ∈ front ↔ 8 < front.length := by
  have hsplit : ∃ rest, tables.toRecords =
      tables.properties.toRecords ++ tables.countsRecord :: rest := by
    simp only [toRecords, List.append_assoc, List.cons_append, List.nil_append]
    exact ⟨_, rfl⟩
  obtain ⟨rest, hrest⟩ := hsplit
  rw [hrest] at hfront
  have hlength := length_toRecords_properties tables.properties
  by_cases h : 8 < front.length
  · have hwhole : tables.properties.toRecords ++ [tables.countsRecord] <+: front := by
      refine List.prefix_of_prefix_length_le ⟨rest, by simp⟩ hfront ?_
      rw [List.length_append, hlength]
      exact h
    exact ⟨fun _ => h, fun _ => hwhole.subset (by simp)⟩
  · have hproperties : front <+: tables.properties.toRecords :=
      List.prefix_of_prefix_length_le hfront (List.prefix_append _ _) (by omega)
    exact ⟨fun hmem => absurd (hproperties.subset hmem) (countsRecord_not_mem tables _),
      fun hlt => absurd hlt h⟩

/-- The first records of tables, if the sizes of the tables are among them and the last parser state
    is not. -/
theorem eq_of_isPrefix_describe {first : List TableRecord} (hlt : tables.lrStates.size < 65536)
    (hpos : 0 < tables.lrStates.size) (hfirst : first <+: tables.describe)
    (hne : first ≠ tables.describe) (hmany : 8 < first.length) :
    ∃ behind, first = tables.properties.describe ++ .tableCounts tables.counts :: behind ∧
      ∀ record ∈ behind, ∃ filling, record.filling? = some filling ∧
        filling.1 ≠ tables.lastState := by
  obtain ⟨rest, last, hsplit, hrest⟩ := describe_eq hlt hpos
  have hopening : tables.properties.describe ++ [.tableCounts tables.counts] <+: first := by
    refine List.prefix_of_prefix_length_le ⟨rest ++ [last], by simp [hsplit]⟩ hfirst ?_
    rw [List.length_append, length_describe_properties]
    exact hmany
  obtain ⟨behind, rfl⟩ := hopening
  refine ⟨behind, by simp, ?_⟩
  have hinit : tables.describe =
      (tables.properties.describe ++ [.tableCounts tables.counts] ++ rest) ++ [last] := by
    simp [hsplit]
  rw [hinit, List.prefix_concat_iff] at hfirst
  rcases hfirst with heq | hfirst
  · exact absurd (heq.trans hinit.symm) hne
  · have hbehind : behind <+: rest := (List.prefix_append_right_inj _).1 hfirst
    exact fun record hrecord => hrest record (hbehind.subset hrecord)

theorem isRow_property {properties : Properties} {record : TableRecord}
    (h : record ∈ properties.describe) : record.isRow = false := by
  obtain ⟨_, _, rfl⟩ := exists_property h
  rfl

/-- Records with other addresses leave the last parser state out. -/
theorem lastAt_lastState {behind : List TableRecord}
    (hbehind : ∀ record ∈ behind, ∃ filling, record.filling? = some filling ∧
      filling.1 ≠ tables.lastState) :
    lastAt ((tables.properties.describe ++ .tableCounts tables.counts :: behind).filterMap
      filling?) tables.lastState = none := by
  apply lastAt_eq_none
  rintro ⟨address, content⟩ hmem heq
  obtain rfl : address = tables.lastState := heq
  obtain ⟨record, hrecord, hfilling⟩ := List.mem_filterMap.1 hmem
  rw [List.mem_append, List.mem_cons] at hrecord
  rcases hrecord with hproperty | rfl | hrecord
  · exact filling?_of_isRow (isRow_property hproperty) hfilling
  · cases hfilling
  · obtain ⟨other, hother, hne⟩ := hbehind record hrecord
    rw [hfilling] at hother
    cases hother
    exact hne rfl

variable {first : List TableRecord} {draft : Draft}

/-- Without the sizes of the tables, a draft is not finished. -/
theorem finish_of_few (hlt : tables.lrStates.size < 65536) (hpos : 0 < tables.lrStates.size)
    (hfirst : first <+: tables.describe) (hfew : first.length ≤ 8)
    (hfold : first.foldlM Draft.add Draft.empty = .ok draft) (header : String) :
    draft.finish header = .error (.tableCountsMissing none) := by
  obtain ⟨rest, last, hsplit, -⟩ := describe_eq hlt hpos
  have honly : first <+: tables.properties.describe := by
    rw [hsplit] at hfirst
    refine List.prefix_of_prefix_length_le hfirst (List.prefix_append _ _) ?_
    rw [length_describe_properties]
    exact hfew
  have hnone : ∀ record ∈ first, record.isTableCounts = false := by
    intro record hrecord
    obtain ⟨_, _, rfl⟩ := exists_property (honly.subset hrecord)
    rfl
  exact draft.finish_of_size? (Draft.size?_foldlM hfold hnone .symbol) header

/-- Without the last record of tables, a draft lacks the last parser state. -/
theorem finish_of_many (hlt : tables.lrStates.size < 65536) (hpos : 0 < tables.lrStates.size)
    (hfirst : first <+: tables.describe) (hne : first ≠ tables.describe) (hmany : 8 < first.length)
    (hfold : first.foldlM Draft.add Draft.empty = .ok draft) (header : String) :
    ∃ table index, draft.finish header = .error (.missingEntry table index) := by
  obtain ⟨behind, hsplit, hbehind⟩ := eq_of_isPrefix_describe hlt hpos hfirst hne hmany
  have hcounts : ∀ record ∈ tables.properties.describe ++ behind,
      record.isTableCounts = false := by
    intro record hrecord
    rcases List.mem_append.1 hrecord with hproperty | hrecord
    · obtain ⟨_, _, rfl⟩ := exists_property hproperty
      rfl
    · obtain ⟨_, hfilling, -⟩ := hbehind record hrecord
      exact isTableCounts_of_filling? hfilling
  obtain ⟨hsize, hcontent⟩ :=
    (foldlM_countsFirst hsplit hcounts fun _ => isRow_property).2 draft hfold
  have hindex : (UInt16.ofNat (tables.lrStates.size - 1)).toNat < tables.counts.size .lrState := by
    show _ < (UInt16.ofNat tables.lrStates.size).toNat
    rw [UInt16.toNat_ofNat_of_lt' (show tables.lrStates.size - 1 < 65536 by omega),
      UInt16.toNat_ofNat_of_lt' hlt]
    omega
  have hnone : draft.content? tables.lastState = none := by
    rw [hcontent, hsplit, lastAt_lastState hbehind]
    rfl
  exact draft.finish_of_missing (hsize .lrState) hindex hnone header

/-- A file of tables with a parser state that ends behind some, but not all, of its records lacks
    the sizes of the tables, or else a row. -/
theorem ofBytes_of_front (hfits : tables.Fits) (hnumbered : tables.renumber = tables)
    (hstates : 0 < tables.lrStates.size) {front : List (List Entry)}
    (hfront : front <+: tables.toRecords) (hne : front ≠ tables.toRecords) :
    (tables.countsRecord ∉ front →
        Grammar.ofBytes (textBytes formatHeader ++ front.flatMap recordBytes) =
          .error (.tableCountsMissing none)) ∧
      (tables.countsRecord ∈ front → ∃ table index,
        Grammar.ofBytes (textBytes formatHeader ++ front.flatMap recordBytes) =
          .error (.missingEntry table index)) := by
  obtain ⟨behind, hbehind⟩ := hfront
  have hdescribed := described hfits hnumbered
  rw [← hbehind] at hdescribed
  obtain ⟨first, second, hrecords, hlength, hfirst, hsecond⟩ := hdescribed.of_append
  have hsecondne : second ≠ [] := by
    rintro rfl
    cases hsecond
    exact hne (by rw [← hbehind, List.append_nil])
  -- what is read is entered, like all records of the tables
  obtain ⟨-, whole, hwhole, -⟩ :=
    Tables.ofRecords_eq_ok_iff.1 (ofRecords_describe hfits formatHeader)
  obtain ⟨draft, hdraft⟩ := exists_foldlM_of_isPrefix ⟨second, hrecords.symm⟩ hwhole
  have hload : Grammar.ofBytes (textBytes formatHeader ++ front.flatMap recordBytes) =
      (draft.finish formatHeader).bind link := by
    rw [Grammar.ofBytes_described hasNul_formatHeader hfirst, ofRecords, hdraft]
    rfl
  have hinitial : first <+: tables.describe := ⟨second, hrecords.symm⟩
  have hproper : first ≠ tables.describe := by
    rintro rfl
    exact hsecondne (List.self_eq_append_right.1 hrecords)
  rw [countsRecord_mem_iff ⟨behind, hbehind⟩, hload, ← hlength]
  constructor
  · intro hfew
    rw [finish_of_few hfits.lrStates.1 hstates hinitial (Nat.le_of_not_lt hfew) hdraft]
    rfl
  · intro hmany
    obtain ⟨table, index, hfinish⟩ :=
      finish_of_many hfits.lrStates.1 hstates hinitial hproper hmany hdraft formatHeader
    rw [hfinish]
    exact ⟨table, index, rfl⟩

end Tables

/-- The file of a grammar that was loaded is refused if it ends too early. A file that ends behind
    the header or a record lacks the sizes of the tables, or else a row; in all other files the
    bytes run out. -/
theorem Grammar.ofBytes_of_isPrefix {bytes written cut : List UInt8} {grammar : Grammar}
    (h : ofBytes bytes = .ok grammar) (hwritten : grammar.toBytes = .ok written)
    (hcut : cut <+: written) (hne : cut ≠ written) :
    (∀ front, front <+: grammar.toTables.toRecords →
      cut = textBytes formatHeader ++ front.flatMap recordBytes →
        (grammar.countsRecord ∉ front → ofBytes cut = .error (.tableCountsMissing none)) ∧
        (grammar.countsRecord ∈ front →
          ∃ table index, ofBytes cut = .error (.missingEntry table index))) ∧
    ((∀ front, front <+: grammar.toTables.toRecords →
        cut ≠ textBytes formatHeader ++ front.flatMap recordBytes) →
      ∃ offset, ofBytes cut = .error (.io offset .truncated)) := by
  have hstates := Nat.zero_lt_of_lt (loaded_of_ofBytes h).inRange.lrInitial
  obtain ⟨tables, hfits, hlink⟩ := ofBytes_eq_ok h
  have hnumbered := tables.renumber_renumber
  have hrecords := Tables.toRecords_of_link hlink
  have hcounts : grammar.countsRecord = tables.renumber.countsRecord := by
    obtain ⟨-, _, _, -, -, rfl⟩ := Tables.link_eq_ok_iff.1 hlink
    exact tables.renumber.countsRecord_linkGroups
  have hsize : 0 < tables.renumber.lrStates.size := by
    obtain ⟨-, _, _, -, -, rfl⟩ := Tables.link_eq_ok_iff.1 hlink
    exact hstates
  obtain ⟨hheader, -, rfl⟩ := fileBytes_eq_ok_iff.1 hwritten
  rw [hrecords] at hcut hne
  rw [hrecords, hcounts]
  constructor
  · rintro front hfront rfl
    refine Tables.ofBytes_of_front hfits.renumber hnumbered hsize hfront ?_
    rintro rfl
    exact hne rfl
  · intro hnone
    obtain ⟨-, draft, hfold, -⟩ :=
      Tables.ofRecords_eq_ok_iff.1 (Tables.ofRecords_describe hfits.renumber formatHeader)
    have hdescribed := Tables.described hfits.renumber hnumbered
    rcases ofBytes_cut hheader hdescribed hfold hcut with ⟨front, hfront, hwhole⟩ | hfault
    · exact absurd hwhole (hnone front hfront)
    · exact hfault

/-- Some, but not all, of the records of a file. -/
theorem isPrefix_flatMap_recordBytes {front written : List (List Entry)} (start : List UInt8)
    (hfront : front <+: written) (hlength : front.length < written.length) :
    start ++ front.flatMap recordBytes <+: start ++ written.flatMap recordBytes ∧
      start ++ front.flatMap recordBytes ≠ start ++ written.flatMap recordBytes := by
  obtain ⟨behind, rfl⟩ := hfront
  refine ⟨⟨behind.flatMap recordBytes, by simp⟩, fun heq => ?_⟩
  have hbytes := congrArg List.length (List.append_cancel_left heq)
  have hbehind := length_lt_flatMap_recordBytes behind
  have hnone : behind.flatMap recordBytes = [] := by
    rw [List.flatMap_append, List.length_append] at hbytes
    exact List.length_eq_zero_iff.1 (by omega)
  cases behind with
  | nil => simp at hlength
  | cons entries behind => cases hnone

/-- The file of the sample, cut behind its first byte, behind its header, and behind the sizes of
    its tables. -/
theorem Grammar.ofBytes_of_isPrefix_sampleFile :
    ∃ grammar written, ofBytes sampleFile = .ok grammar ∧ grammar.toBytes = .ok written ∧
      (∃ offset, ofBytes (written.take 1) = .error (.io offset .truncated)) ∧
      ofBytes (textBytes formatHeader ++ ([] : List (List Entry)).flatMap recordBytes) =
        .error (.tableCountsMissing none) ∧
      ∃ table index, ofBytes (textBytes formatHeader ++
        (grammar.toTables.toRecords.take 9).flatMap recordBytes) =
          .error (.missingEntry table index) := by
  have hpasses : passes sampleFile (fun grammar => decide (9 < grammar.toTables.toRecords.length ∧
      grammar.toBytes.toOption.isSome = true)) = true := by decide +kernel
  obtain ⟨grammar, h, htest⟩ := exists_of_passes hpasses
  obtain ⟨hmany, hsome⟩ := of_decide_eq_true htest
  obtain ⟨written, hwritten⟩ : ∃ written, grammar.toBytes = .ok written := by
    cases hbytes : grammar.toBytes with
    | ok written => exact ⟨written, rfl⟩
    | error fault =>
      rw [hbytes] at hsome
      cases hsome
  obtain ⟨-, -, rfl⟩ := fileBytes_eq_ok_iff.1 hwritten
  have hheader : 1 < (textBytes formatHeader).length := by
    rw [length_textBytes]
    decide
  have hnine : (grammar.toTables.toRecords.take 9).length = 9 := by
    rw [List.length_take]
    omega
  have hcounts : grammar.countsRecord ∈ grammar.toTables.toRecords.take 9 := by
    rw [Tables.countsRecord_mem_iff (List.take_prefix 9 _), hnine]
    omega
  refine ⟨grammar, _, h, hwritten, ?_, ?_, ?_⟩
  · refine (ofBytes_of_isPrefix h hwritten (List.take_prefix 1 _) ?_).2 ?_
    · intro heq
      have hlength := congrArg List.length heq
      rw [List.length_take, List.length_append] at hlength
      omega
    · intro front _ heq
      have hlength := congrArg List.length heq
      rw [List.length_take, List.length_append, List.length_append] at hlength
      omega
  · obtain ⟨hinitial, hne⟩ := isPrefix_flatMap_recordBytes (textBytes formatHeader)
      (List.nil_prefix : [] <+: grammar.toTables.toRecords) (by rw [List.length_nil]; omega)
    exact ((ofBytes_of_isPrefix h hwritten hinitial hne).1 [] List.nil_prefix rfl).1
      List.not_mem_nil
  · obtain ⟨hinitial, hne⟩ := isPrefix_flatMap_recordBytes (textBytes formatHeader)
      (List.take_prefix 9 grammar.toTables.toRecords) (by omega)
    exact ((ofBytes_of_isPrefix h hwritten hinitial hne).1 _ (List.take_prefix 9 _) rfl).2 hcounts

end GoldTables

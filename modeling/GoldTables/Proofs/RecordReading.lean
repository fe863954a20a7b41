import GoldTables.Grammar.Write
import GoldTables.Proofs.AcceptedRecords

/-!
# Records are read back as written

For each kind of record: the entries that a row is written with are read back
as that row. A file whose records describe some rows is then read as these
rows, in order, and without a fault.

Results:
* `yields_symbol`, `yields_group` and the like: what the entries of a row are read as.
* `tableRecords_described`: what a file of described records is read as.
-/

namespace GoldTables

open RecordReader

/-! ## Items -/

/-- Items with at least one entry, or byte, each are no more than their entries. -/
theorem length_le_length_flatMap {α β : Type} {parts : α → List β} (values : List α)
    (hne : ∀ value, parts value ≠ []) : values.length ≤ (values.flatMap parts).length := by
  induction values with
  | nil => exact Nat.le_refl _
  | cons value values ih =>
    have := List.length_pos_iff.2 (hne value)
    rw [List.flatMap_cons, List.length_append, List.length_cons]
    omega

namespace RecordReader

variable {α : Type} {left : List Entry}

theorem Yields.times {item : ReadM α} {entries : α → List Entry} (values done : List α)
    (hitem : ∀ value left, Yields item (entries value ++ left) value left) :
    Yields (TableRecord.readTimes item values.length done) (values.flatMap entries ++ left)
      (done.reverse ++ values) left := by
  induction values generalizing done with
  | nil =>
    rw [List.append_nil]
    exact .pure done.reverse
  | cons value values ih =>
    have := ih (value :: done)
    rw [List.reverse_cons, List.append_assoc, List.singleton_append] at this
    rw [List.flatMap_cons, List.append_assoc]
    exact .bind (hitem value _) this

theorem Yields.complete (item : ReadM α) (n : Nat) (done : List α) :
    Yields (TableRecord.readUntilComplete item n done) [] done.reverse [] := by
  intro reader rest hreader
  cases n with
  | zero => exact ⟨reader, rfl, hreader⟩
  | succ n =>
    refine ⟨reader, ?_, hreader⟩
    rw [TableRecord.readUntilComplete, run_get_bind, if_pos hreader.recordComplete]
    rfl

theorem Yields.untilComplete {item : ReadM α} {entries : α → List Entry} (n : Nat)
    (values done : List α) (hn : values.length ≤ n) (hne : ∀ value, entries value ≠ [])
    (hitem : ∀ value left, Yields item (entries value ++ left) value left) :
    Yields (TableRecord.readUntilComplete item n done) (values.flatMap entries)
      (done.reverse ++ values) [] := by
  induction values generalizing n done with
  | nil =>
    rw [List.append_nil]
    exact .complete item n done
  | cons value values ih =>
    obtain ⟨n, rfl⟩ : ∃ m, n = m + 1 := ⟨n - 1, by rw [List.length_cons] at hn; omega⟩
    have hrest := ih n (value :: done) (by rw [List.length_cons] at hn; omega)
    rw [List.reverse_cons, List.append_assoc, List.singleton_append] at hrest
    intro reader rest hreader
    have hopen : ¬reader.recordComplete = true := by
      rw [hreader.recordComplete_iff, List.flatMap_cons, List.append_eq_nil_iff]
      exact fun h => hne value h.1
    rw [TableRecord.readUntilComplete, run_get_bind, if_neg hopen]
    rw [List.flatMap_cons] at hreader
    exact Yields.bind (hitem value _) hrest reader rest hreader

theorem Yields.items {item : ReadM α} {entries : α → List Entry} (values : List α)
    (hne : ∀ value, entries value ≠ [])
    (hitem : ∀ value left, Yields item (entries value ++ left) value left) :
    Yields (TableRecord.readItems item) (values.flatMap entries) values [] := by
  intro reader rest hreader
  have hlength := length_le_length_flatMap values hne
  rw [TableRecord.readItems, run_get_bind]
  exact Yields.untilComplete _ values [] (Nat.le_trans hlength hreader.length_le) hne hitem
    reader rest hreader

end RecordReader

/-! ## Rows -/

namespace TableRecord

theorem yields_code {α : Type} {field : CodeField} {ofCode? : UInt16 → Option α} {code : UInt16}
    {value : α} {left : List Entry} (h : ofCode? code = some value) :
    Yields (readCode field ofCode?) (.uint16 code :: left) value left := by
  refine .bind (.number code) ?_
  rw [h]
  exact .pure value

theorem yields_property (index : UInt16) {name value : String} (hname : hasNul name = false)
    (hvalue : hasNul value = false) :
    Yields readProperty [.uint16 index, .string name, .string value] (.property index value) [] :=
  .bind (.number index) <| .bind (.text hname) <| .bind (.text hvalue) <| .pure _

theorem yields_tableCounts (counts : TableCounts) :
    Yields readTableCounts
      [.uint16 counts.symbols, .uint16 counts.characterSets, .uint16 counts.productions,
        .uint16 counts.dfaStates, .uint16 counts.lrStates, .uint16 counts.groups]
      (.tableCounts counts) [] :=
  .bind (.number _) <| .bind (.number _) <| .bind (.number _) <| .bind (.number _) <|
    .bind (.number _) <| .bind (.number _) <| .pure _

theorem yields_initialStates (dfa lr : UInt16) :
    Yields readInitialStates [.uint16 dfa, .uint16 lr] (.initialStates dfa lr) [] :=
  .bind (.number dfa) <| .bind (.number lr) <| .pure _

theorem yields_symbol {symbol : Symbol} (h : symbol.Fits) :
    Yields readSymbol
      [.uint16 symbol.index, .string symbol.name, .uint16 symbol.kind.code]
      (.symbol symbol.index { symbol with group := none }) [] :=
  .bind (.number _) <| .bind (.text h) <| .bind (yields_code (SymbolKind.ofCode?_code _)) <|
    .pure _

theorem yields_range (range : CharacterRange) (left : List Entry) :
    Yields readRange ([.uint16 range.start, .uint16 range.last] ++ left) range left :=
  .bind (.number _) <| .bind (.number _) <| .pure _

theorem yields_characterSet (set : CharacterSet) (index : Nat) :
    Yields readCharacterSet
      ([countEntry index, .uint16 set.codepage, countEntry set.ranges.length, .empty] ++
        set.ranges.flatMap fun range => [.uint16 range.start, .uint16 range.last])
      (.characterSet (UInt16.ofNat index) (UInt16.ofNat set.ranges.length) set) [] :=
  .bind (.number _) <| .bind (.number _) <| .bind (.number _) <| .bind (.entry .empty rfl) <|
    .bind (.items _ (fun _ => List.cons_ne_nil _ _) yields_range) <| .pure _

theorem yields_production (production : Production) :
    Yields readProduction
      ([.uint16 production.index, .uint16 production.head, .empty] ++ production.body.map .uint16)
      (.production production.index production) [] := by
  refine .bind (.number _) <| .bind (.number _) <| .bind (.entry .empty rfl) <| .bind ?_ <| .pure _
  rw [List.map_eq_flatMap]
  exact .items _ (fun _ => List.cons_ne_nil _ _) fun value _ => .number value

theorem yields_edge (edge : DfaEdge) (left : List Entry) :
    Yields readEdge ([.uint16 edge.set, .uint16 edge.target, .empty] ++ left) edge left :=
  .bind (.number _) <| .bind (.number _) <| .bind (.entry .empty rfl) <| .pure _

theorem yields_dfaState (state : DfaState) (index : Nat) :
    Yields readDfaState
      ([countEntry index, .boolean state.accept.isSome, .uint16 (state.accept.getD 0), .empty] ++
        state.edges.flatMap fun edge => [.uint16 edge.set, .uint16 edge.target, .empty])
      (.dfaState (UInt16.ofNat index) state) [] := by
  refine .bind (.number _) <| .bind (.bool _) <| .bind (.number _) <| .bind (.entry .empty rfl) <|
    .bind (.items _ (fun _ => List.cons_ne_nil _ _) yields_edge) ?_
  obtain ⟨accept, edges⟩ := state
  cases accept with
  | none => exact .pure _
  | some symbol => exact .pure _

theorem yields_action (row : LrAction) (left : List Entry) :
    Yields readAction (row.toEntries ++ left) row left := by
  refine .bind (.number _) <| .bind (.number _) <| .bind (.number _) <|
    .bind (.entry .empty rfl) ?_
  rw [Action.ofTable?_toTable]
  exact .pure row

theorem yields_lrState {state : LrState} (h : state.Fits) (index : Nat) :
    Yields readLrState
      ([countEntry index, .empty] ++ state.actions.toList.flatMap LrAction.toEntries)
      (.lrState (UInt16.ofNat index) state) [] := by
  refine .bind (.number _) <| .bind (.entry .empty rfl) <|
    .bind (.items _ (fun _ => List.cons_ne_nil _ _) yields_action) ?_
  have hstate : state = LrState.ofActions state.actions.toList := h.1
  rw [← hstate]
  exact .pure _

theorem yields_group {group : Group} (h : group.Fits) :
    Yields readGroup
      ([.uint16 group.index, .string group.name, .uint16 group.container, .uint16 group.start,
        .uint16 group.finish, .uint16 group.advance.code, .uint16 group.ending.code, .empty,
        countEntry group.nesting.length] ++ group.nesting.map .uint16)
      (.group group.index group) [] := by
  have hlength : (UInt16.ofNat group.nesting.length).toNat = group.nesting.length :=
    UInt16.toNat_ofNat_of_lt' (show _ < 65536 by have := h.2; omega)
  refine .bind (.number _) <| .bind (.text h.1) <| .bind (.number _) <| .bind (.number _) <|
    .bind (.number _) <| .bind (yields_code (AdvanceMode.ofCode?_code _)) <|
    .bind (yields_code (EndingMode.ofCode?_code _)) <| .bind (.entry .empty rfl) <|
    .bind (.number _) <| .bind ?_ <| .pure _
  have hnesting : Yields (readTimes readNumber group.nesting.length [])
      (group.nesting.flatMap (fun nested => [.uint16 nested]) ++ []) group.nesting [] :=
    .times _ [] fun nested _ => .number nested
  rw [List.append_nil] at hnesting
  rw [hlength, List.map_eq_flatMap]
  exact hnesting

end TableRecord

/-! ## Descriptions -/

/-- A record that can be written. -/
structure Encodable (entries : List Entry) : Prop where
  length_lt : entries.length < 65536
  isWritable : ∀ entry ∈ entries, entry.isWritable = true

/-- A record of entries says something; `counted` tells whether the sizes of the tables are known
    when it is read. Entries behind what is said may be left. -/
def Describes (counted : Bool) (entries : List Entry) (record : TableRecord) : Prop :=
  Encodable entries ∧ ∃ kind body left, entries = kindRecord kind body ∧
    (∀ entry ∈ left, entry.isWritable = true) ∧
      Yields (TableRecord.readBody counted kind) body record left

/-- A list of records says something, record by record. -/
inductive Described : Bool → List (List Entry) → List TableRecord → Prop where
  | nil (counted : Bool) : Described counted [] []
  | cons {counted : Bool} {entries : List Entry} {record : TableRecord}
      {written : List (List Entry)} {records : List TableRecord}
      (head : Describes counted entries record)
      (tail : Described (counted || record.isTableCounts) written records) :
      Described counted (entries :: written) (record :: records)

variable {counted : Bool} {written more : List (List Entry)} {records next : List TableRecord}

theorem Described.append (h : Described counted written records)
    (hmore : Described (counted || records.any TableRecord.isTableCounts) more next) :
    Described counted (written ++ more) (records ++ next) := by
  induction h with
  | nil counted => simpa using hmore
  | cons head tail ih =>
    rw [List.any_cons, ← Bool.or_assoc] at hmore
    exact .cons head (ih hmore)

theorem Described.map {ι : Type} {entries : ι → List Entry} {record : ι → TableRecord}
    (items : List ι) (hcounts : ∀ item, (record item).isTableCounts = false)
    (h : ∀ item ∈ items, Describes counted (entries item) (record item)) :
    Described counted (items.map entries) (items.map record) := by
  induction items with
  | nil => exact .nil counted
  | cons item items ih =>
    refine .cons (h item List.mem_cons_self) ?_
    rw [hcounts, Bool.or_false]
    exact ih fun other hother => h other (List.mem_cons_of_mem item hother)

/-- The next record is read as what it says. -/
theorem Describes.readNext {entries left : List Entry} {record : TableRecord}
    {reader : RecordReader} {rest : List UInt8} (h : Describes counted entries record)
    (hreader : reader.Holds left (recordBytes entries ++ rest))
    (hleft : ∀ entry ∈ left, entry.isWritable = true) :
    ∃ next behind, TableRecord.readNext counted reader = .ok (some record) next ∧
      next.Holds behind rest ∧ ∀ entry ∈ behind, entry.isWritable = true := by
  obtain ⟨hencodable, kind, body, behind, rfl, hbehind, hbody⟩ := h
  obtain ⟨start, hstart, hholds⟩ := nextRecord_recordBytes hreader hleft hencodable.length_lt
  obtain ⟨middle, hmiddle, hholds⟩ := Yields.byte kind.code start rest hholds
  obtain ⟨last, hlast, hholds⟩ := hbody middle rest hholds
  refine ⟨last, behind, ?_, hholds, hbehind⟩
  rw [TableRecord.readNext, run_bind hstart]
  simp only [if_true]
  rw [run_get_bind, run_bind hmiddle, RecordKind.ofCode?_code]
  simp only
  rw [run_bind hlast]
  rfl

theorem collectRecords_described {n : Nat} {done : List TableRecord} {reader : RecordReader}
    {left : List Entry} (h : Described counted written records) (hn : written.length < n)
    (hreader : reader.Holds left (written.flatMap recordBytes))
    (hleft : ∀ entry ∈ left, entry.isWritable = true) :
    collectRecords n counted done reader = (done.reverse ++ records, none) := by
  induction h generalizing n done reader left with
  | nil counted =>
    obtain ⟨n, rfl⟩ : ∃ m, n = m + 1 := ⟨n - 1, by omega⟩
    obtain ⟨next, hend⟩ := nextRecord_nil hreader hleft
    have hnext : TableRecord.readNext counted reader = .ok none next := by
      rw [TableRecord.readNext, run_bind hend]
      rfl
    rw [collectRecords, hnext, List.append_nil]
  | cons head tail ih =>
    obtain ⟨n, rfl⟩ : ∃ m, n = m + 1 := ⟨n - 1, by omega⟩
    rw [List.flatMap_cons] at hreader
    obtain ⟨next, behind, hnext, hholds, hbehind⟩ := head.readNext hreader hleft
    rw [List.length_cons] at hn
    rw [collectRecords, hnext]
    simp only
    rw [ih (by omega) hholds hbehind, List.reverse_cons, List.append_assoc, List.singleton_append]

/-! ## Files -/

theorem writeRecord_encodable {entries : List Entry} (h : Encodable entries) :
    writeRecord entries = ⟨recordBytes entries, none⟩ := by
  have hlength : ¬65535 < entries.length := by have := h.length_lt; omega
  have hfind : (entries.find? fun entry => !entry.isWritable) = none := by
    rw [List.find?_eq_none]
    intro entry hentry
    rw [h.isWritable entry hentry]
    exact Bool.false_ne_true
  rw [writeRecord, if_neg hlength, hfind]

/-- The bytes of a file whose texts and records can all be written. -/
theorem fileBytes_encodable {header : String} (hheader : hasNul header = false)
    (h : ∀ entries ∈ written, Encodable entries) :
    fileBytes header written = .ok (textBytes header ++ written.flatMap recordBytes) := by
  have hparts : (written.mapM fun entries => (writeRecord entries).toExcept) =
      .ok (written.map recordBytes) := by
    clear hheader
    induction written with
    | nil => rfl
    | cons entries written ih =>
      rw [List.mapM_cons, writeRecord_encodable (h entries List.mem_cons_self),
        ih fun other hother => h other (List.mem_cons_of_mem entries hother)]
      rfl
  rw [fileBytes, writeHeader, writeText, hheader, hparts, List.flatMap_def]
  rfl

theorem Described.encodable (h : Described counted written records) :
    ∀ entries ∈ written, Encodable entries := by
  induction h with
  | nil counted => exact fun _ hmem => absurd hmem List.not_mem_nil
  | cons head tail ih =>
    intro entries hmem
    rcases List.mem_cons.1 hmem with rfl | hmem
    · exact head.1
    · exact ih entries hmem

/-- The reader behind a header, before the first record. -/
def RecordReader.start (header : String) (rest : List UInt8) : RecordReader :=
  ⟨header, rest, (textBytes header).length, 0, 0⟩

theorem RecordReader.holds_start (header : String) (rest : List UInt8) :
    (start header rest).Holds [] rest := ⟨rfl, rfl⟩

/-- A file starts with its header. -/
theorem RecordReader.open?_textBytes {header : String} (hheader : hasNul header = false)
    (rest : List UInt8) : open? (textBytes header ++ rest) = .ok (start header rest) := by
  have htext : rawText ⟨"", textBytes header ++ rest, 0, 0, 0⟩ = _ := rawText_textBytes hheader rfl
  rw [open?, htext, Nat.zero_add]
  rfl

/-- There are no more records than bytes. -/
theorem length_lt_flatMap_recordBytes (written : List (List Entry)) :
    written.length < (written.flatMap recordBytes).length + 1 :=
  Nat.lt_succ_of_le (length_le_length_flatMap written fun _ => List.cons_ne_nil _ _)

/-- Described records are read as what they say. -/
theorem tableRecords_described (header : String) (h : Described false written records) :
    tableRecords (start header (written.flatMap recordBytes)) = (records, none) :=
  collectRecords_described h (length_lt_flatMap_recordBytes written) (holds_start header _)
    (by simp)

end GoldTables

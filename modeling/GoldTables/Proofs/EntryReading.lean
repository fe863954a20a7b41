import GoldTables.Proofs.Utf16RoundTrip

/-!
# Entries are read back as written

A reader that stands before the bytes of writable entries reads exactly these
entries, one after the other, and then stands before the bytes behind them.
`Yields` says that of a reading step, and steps are chained by `Yields.bind`,
so that a layout of entries is read back by one lemma for each of its entries.

Results:
* `readEntry_bytes`: what one read does to a reader before the bytes of an entry.
* `nextRecord_recordBytes`: the start of the next record, behind what was left of another.
-/

namespace GoldTables

namespace RecordReader

/-! ## Running steps -/

section Running

variable {α β : Type} {reader middle : RecordReader}

theorem run_bind {step : ReadM α} {next : α → ReadM β} {value : α}
    (h : step reader = .ok value middle) : (step >>= next) reader = next value middle := by
  show EStateM.bind step next reader = _
  rw [EStateM.bind, h]

theorem run_get_bind (next : RecordReader → ReadM β) (reader : RecordReader) :
    (get >>= next) reader = next reader reader := rfl

theorem run_set_bind (next : PUnit → ReadM β) (reader other : RecordReader) :
    (set other >>= next) reader = next ⟨⟩ other := rfl

theorem rawByte_cons {byte : UInt8} {rest : List UInt8} (h : reader.rest = byte :: rest) :
    rawByte reader = .ok byte { reader with rest, offset := reader.offset + 1 } := by
  rw [rawByte, h]

theorem rawWord_wordBytes {n : UInt16} {rest : List UInt8} (h : reader.rest = wordBytes n ++ rest) :
    rawWord reader = .ok n { reader with rest, offset := reader.offset + 2 } := by
  rw [rawWord, h]
  simp only [wordBytes, List.cons_append, List.nil_append, word_bytes]

theorem skipEntries_zero (reader : RecordReader) : skipEntries 0 reader = .ok ⟨⟩ reader := rfl

end Running

/-! ## Payloads -/

@[simp] theorem length_textBytes (s : String) :
    (textBytes s).length = 2 * ((Text.toUtf16 s).length + 1) := by
  have hunits : ∀ units : List UInt16, (units.flatMap wordBytes).length = 2 * units.length := by
    intro units
    induction units with
    | nil => rfl
    | cons u units ih => simp [wordBytes, ih]; omega
  simp [textBytes, hunits, wordBytes]; omega

theorem rawText_textBytes {reader : RecordReader} {s : String} {rest : List UInt8}
    (hs : hasNul s = false) (hrest : reader.rest = textBytes s ++ rest) :
    rawText reader =
      .ok s { reader with rest, offset := reader.offset + (textBytes s).length } := by
  rw [rawText, hrest, splitUnits_textBytes hs]
  simp [Text.ofUtf16_toUtf16]

/-- The bytes of an entry behind its tag. -/
def payloadBytes : Entry → List UInt8
  | .empty => []
  | .boolean value => [if value then 1 else 0]
  | .uint16 value => wordBytes value
  | .string value => textBytes value
  | .byte value => [value]

theorem bytes_eq (entry : Entry) : entry.bytes = entry.type.tag :: payloadBytes entry := by
  cases entry <;> rfl

theorem readPayload_payloadBytes {reader : RecordReader} {entry : Entry} {rest : List UInt8}
    (hentry : entry.isWritable = true) (hrest : reader.rest = payloadBytes entry ++ rest) :
    readPayload entry.type reader =
      .ok entry { reader with rest, offset := reader.offset + (payloadBytes entry).length } := by
  cases entry with
  | empty =>
    obtain ⟨header, bytes, offset, count, done⟩ := reader
    cases hrest
    rfl
  | boolean value =>
    show (rawByte >>= fun byte => pure (Entry.boolean (byte = 1))) reader = _
    rw [run_bind (rawByte_cons hrest)]
    cases value <;> rfl
  | uint16 value =>
    show (rawWord >>= fun n => pure (Entry.uint16 n)) reader = _
    rw [run_bind (rawWord_wordBytes hrest)]
    rfl
  | string value =>
    have hs : hasNul value = false := by simpa [Entry.isWritable] using hentry
    show (rawText >>= fun s => pure (Entry.string s)) reader = _
    rw [run_bind (rawText_textBytes hs hrest)]
    rfl
  | byte value =>
    show (rawByte >>= fun byte => pure (Entry.byte byte)) reader = _
    rw [run_bind (rawByte_cons hrest)]
    rfl

/-! ## Entries -/

/-- What one read does to a reader that stands before the bytes of an entry. -/
theorem readEntry_bytes {reader : RecordReader} {entry : Entry} {rest : List UInt8}
    (hentry : entry.isWritable = true) (hopen : reader.recordComplete = false)
    (hrest : reader.rest = entry.bytes ++ rest) :
    readEntry reader =
      .ok entry
        { reader with
          rest
          entriesRead := reader.entriesRead + 1
          offset := reader.offset + entry.bytes.length } := by
  rw [bytes_eq] at hrest ⊢
  have hclosed : ¬reader.recordComplete = true := by rw [hopen]; exact Bool.false_ne_true
  have htag : rawByte { reader with entriesRead := reader.entriesRead + 1 } =
      .ok entry.type.tag
        { reader with
          rest := payloadBytes entry ++ rest
          entriesRead := reader.entriesRead + 1
          offset := reader.offset + 1 } := rawByte_cons hrest
  unfold readEntry
  rw [run_get_bind, if_neg hclosed, run_set_bind, run_bind htag, EntryType.ofTag?_tag]
  simp only
  rw [readPayload_payloadBytes hentry rfl, List.length_cons, Nat.add_assoc, Nat.add_comm 1]

/-- The reader stands inside a record before some entries, the last ones of the record, and
    before other bytes behind them. -/
structure Holds (reader : RecordReader) (entries : List Entry) (rest : List UInt8) : Prop where
  bytes : reader.rest = entries.flatMap Entry.bytes ++ rest
  count : reader.entriesRead.toNat + entries.length = reader.entryCount.toNat

theorem Holds.recordComplete_iff {reader : RecordReader} {entries : List Entry}
    {rest : List UInt8} (h : reader.Holds entries rest) :
    reader.recordComplete = true ↔ entries = [] := by
  have hcount := h.count
  rw [recordComplete, decide_eq_true_iff, UInt16.le_iff_toNat_le, ← List.length_eq_zero_iff]
  omega

theorem Holds.length_le {reader : RecordReader} {entries : List Entry} {rest : List UInt8}
    (h : reader.Holds entries rest) : entries.length ≤ reader.entryCount.toNat := by
  have := h.count
  omega

/-- Reading one of the entries leaves the reader before the next one. -/
theorem Holds.readEntry {reader : RecordReader} {entry : Entry} {entries : List Entry}
    {rest : List UInt8} (h : reader.Holds (entry :: entries) rest)
    (hentry : entry.isWritable = true) :
    ∃ next, RecordReader.readEntry reader = .ok entry next ∧ next.Holds entries rest := by
  have hopen : reader.recordComplete = false := by
    rw [Bool.eq_false_iff, ne_eq, h.recordComplete_iff]
    exact List.cons_ne_nil _ _
  have hbytes := h.bytes
  rw [List.flatMap_cons, List.append_assoc] at hbytes
  refine ⟨_, readEntry_bytes hentry hopen hbytes, rfl, ?_⟩
  have hcount := h.count
  have hlt := reader.entryCount.toNat_lt
  rw [List.length_cons] at hcount
  show (reader.entriesRead + 1).toNat + entries.length = reader.entryCount.toNat
  rw [UInt16.toNat_add, show (1 : UInt16).toNat = 1 from rfl]
  omega

/-! ## Reading steps -/

/-- A reading step takes some entries of the current record and yields a value; `left` are the
    entries that it leaves. -/
def Yields {α : Type} (step : ReadM α) (entries : List Entry) (value : α) (left : List Entry) :
    Prop :=
  ∀ reader rest, reader.Holds entries rest →
    ∃ next, step reader = .ok value next ∧ next.Holds left rest

variable {α β : Type} {entries left more : List Entry}

theorem Yields.pure (value : α) : Yields (Pure.pure value) entries value entries :=
  fun reader _ h => ⟨reader, rfl, h⟩

theorem Yields.bind {step : ReadM α} {next : α → ReadM β} {value : α} {result : β}
    (h : Yields step entries value more) (hnext : Yields (next value) more result left) :
    Yields (step >>= next) entries result left := by
  intro reader rest hreader
  obtain ⟨middle, hmiddle, hholds⟩ := h reader rest hreader
  obtain ⟨last, hlast, hleft⟩ := hnext middle rest hholds
  exact ⟨last, (run_bind hmiddle).trans hlast, hleft⟩

theorem Yields.entry (entry : Entry) (h : entry.isWritable = true) :
    Yields RecordReader.readEntry (entry :: left) entry left :=
  fun _ _ hreader => hreader.readEntry h

theorem Yields.typed {expected : EntryType} {value? : Entry → Option α} {entry : Entry} {value : α}
    (h : entry.isWritable = true) (hvalue : value? entry = some value) :
    Yields (readTyped expected value?) (entry :: left) value left := by
  intro reader rest hreader
  obtain ⟨next, hnext, hleft⟩ := hreader.readEntry h
  refine ⟨next, ?_, hleft⟩
  rw [readTyped, run_get_bind, run_bind hnext, hvalue]
  rfl

theorem Yields.number (n : UInt16) : Yields readNumber (.uint16 n :: left) n left :=
  Yields.typed rfl rfl

theorem Yields.text {s : String} (h : hasNul s = false) :
    Yields readText (.string s :: left) s left :=
  Yields.typed (by rw [Entry.isWritable, h]; rfl) rfl

theorem Yields.bool (b : Bool) : Yields readBool (.boolean b :: left) b left :=
  Yields.typed rfl rfl

theorem Yields.byte (b : UInt8) : Yields readByte (.byte b :: left) b left :=
  Yields.typed rfl rfl

/-! ## Records -/

/-- A step that yields a record's last entries leaves the record complete. -/
theorem Holds.recordComplete {reader : RecordReader} {rest : List UInt8}
    (h : reader.Holds [] rest) : reader.recordComplete = true :=
  h.recordComplete_iff.2 rfl

/-- Entries that were left unread are skipped. -/
theorem Holds.skipEntries {reader : RecordReader} {rest : List UInt8} (h : reader.Holds left rest)
    (hleft : ∀ entry ∈ left, entry.isWritable = true) :
    ∃ next, RecordReader.skipEntries left.length reader = .ok ⟨⟩ next ∧ next.Holds [] rest := by
  induction left generalizing reader with
  | nil => exact ⟨reader, skipEntries_zero reader, h⟩
  | cons entry left ih =>
    obtain ⟨hentry, hleft⟩ := List.forall_mem_cons.1 hleft
    obtain ⟨middle, hmiddle, hholds⟩ := h.readEntry hentry
    obtain ⟨next, hnext, hholds⟩ := ih hholds hleft
    exact ⟨next, (run_bind hmiddle).trans hnext, hholds⟩

theorem Holds.length_eq {reader : RecordReader} {rest : List UInt8} (h : reader.Holds left rest) :
    reader.entryCount.toNat - reader.entriesRead.toNat = left.length := by
  have hcount := h.count
  omega

/-- The start of the next record, behind what was left of the one before it. -/
theorem nextRecord_recordBytes {reader : RecordReader} {rest : List UInt8}
    (hreader : reader.Holds left (recordBytes entries ++ rest))
    (hleft : ∀ entry ∈ left, entry.isWritable = true) (hlength : entries.length < 65536) :
    ∃ next, nextRecord reader = .ok true next ∧ next.Holds entries rest := by
  obtain ⟨middle, hskip, hmiddle⟩ := hreader.skipEntries hleft
  have hrest : middle.rest = recordBytes entries ++ rest := hmiddle.bytes
  have hopen : ¬middle.atEnd = true := by rw [atEnd, hrest]; exact Bool.false_ne_true
  refine ⟨{ middle with
    rest := entries.flatMap Entry.bytes ++ rest
    offset := middle.offset + 1 + 2
    entryCount := UInt16.ofNat entries.length
    entriesRead := 0 }, ?_, rfl, ?_⟩
  · unfold nextRecord
    rw [run_get_bind, hreader.length_eq, run_bind hskip, run_get_bind, if_neg hopen,
      run_get_bind, run_bind (rawByte_cons hrest)]
    simp only [ne_eq, not_true_eq_false, if_false]
    rw [run_bind (rawWord_wordBytes rfl)]
    rfl
  · show 0 + entries.length = (UInt16.ofNat entries.length).toNat
    rw [UInt16.toNat_ofNat_of_lt' hlength, Nat.zero_add]

/-- Behind the last record there is no other. -/
theorem nextRecord_nil {reader : RecordReader} (hreader : reader.Holds left [])
    (hleft : ∀ entry ∈ left, entry.isWritable = true) :
    ∃ next, nextRecord reader = .ok false next := by
  obtain ⟨middle, hskip, hmiddle⟩ := hreader.skipEntries hleft
  have hrest : middle.rest = [] := hmiddle.bytes
  have hend : middle.atEnd = true := by rw [atEnd, hrest]; rfl
  refine ⟨middle, ?_⟩
  unfold nextRecord
  rw [run_get_bind, hreader.length_eq, run_bind hskip, run_get_bind, if_pos hend]
  rfl

end RecordReader

end GoldTables

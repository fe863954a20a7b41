import GoldTables.Proofs.RecordReading

/-!
# Reading depends on the entries of a record

A step that reads inside a record looks at the entries it finds there and at
nothing else. So if it succeeds before some entries, it yields the same value
before the same entries of any other file, and leaves the same ones. Before a
file that ends inside of these entries it either yields that value as well, or
fails for want of bytes. `Regular` says both of a step, and steps are chained
by `Regular.bind`.

Results:
* `splitUnits_append_right`: a text is found whatever comes behind it.
* `CutShort.readEntry`: one read before bytes that end too early.
* `regular_readBody`: every kind of record is read by a regular step.
-/

namespace GoldTables

namespace RecordReader

/-! ## Bytes that end too early -/

/-- A list of two parts is cut inside of the first part, or not before the end of it. -/
theorem append_cut {α : Type} {start missing first second : List α}
    (h : start ++ missing = first ++ second) :
    (∃ lost, lost ≠ [] ∧ start ++ lost = first) ∨
      ∃ more, start = first ++ more ∧ more ++ missing = second := by
  rcases List.append_eq_append_iff.1 h with ⟨lost, hlost, hmore⟩ | ⟨more, hstart, hmore⟩
  · by_cases hnone : lost = []
    · subst hnone
      rw [List.append_nil] at hlost
      exact Or.inr ⟨[], by rw [List.append_nil, hlost], hmore⟩
    · exact Or.inl ⟨lost, hnone, hlost.symm⟩
  · exact Or.inr ⟨more, hstart, hmore.symm⟩

theorem splitUnits_append_right {units read : List UInt16} {bytes rest : List UInt8}
    (h : splitUnits units bytes = some (read, rest)) (more : List UInt8) :
    splitUnits units (bytes ++ more) = some (read, rest ++ more) := by
  induction units, bytes using splitUnits.induct with
  | case1 units low high bytes unit hzero =>
    rw [splitUnits, if_pos hzero] at h
    cases h
    rw [List.cons_append, List.cons_append, splitUnits, if_pos hzero]
  | case2 units low high bytes unit hzero ih =>
    rw [splitUnits, if_neg hzero] at h
    rw [List.cons_append, List.cons_append, splitUnits, if_neg hzero]
    exact ih h
  | case3 units bytes hshort =>
    rw [splitUnits.eq_def] at h
    split at h
    · exact absurd rfl (hshort _ _ _)
    · cases h

/-- A text that is cut short has no end. -/
theorem splitUnits_cut {s : String} {bytes missing : List UInt8} (hs : hasNul s = false)
    (hmissing : missing ≠ []) (hbytes : bytes ++ missing = textBytes s) :
    splitUnits [] bytes = none := by
  cases hsplit : splitUnits [] bytes with
  | none => rfl
  | some found =>
    have hwhole := splitUnits_append_right hsplit missing
    have htext := splitUnits_textBytes hs []
    rw [List.append_nil, ← hbytes, hwhole] at htext
    have hempty := congrArg Prod.snd (Option.some.inj htext)
    exact absurd (List.append_eq_nil_iff.1 hempty).2 hmissing

section Running

variable {α β : Type} {reader : RecordReader}

/-- A step fails for want of bytes. -/
def Starves (step : ReadM α) (reader : RecordReader) : Prop :=
  ∃ offset next, step reader = .error (.io offset .truncated) next

theorem run_bind_error {step : ReadM α} {next : α → ReadM β} {fault : LoadError}
    {last : RecordReader} (h : step reader = .error fault last) :
    (step >>= next) reader = .error fault last := by
  show EStateM.bind step next reader = _
  rw [EStateM.bind, h]

theorem Starves.bind {step : ReadM α} (h : Starves step reader) (next : α → ReadM β) :
    Starves (step >>= next) reader := by
  obtain ⟨offset, last, hfault⟩ := h
  exact ⟨offset, last, run_bind_error hfault⟩

/-- What comes behind a step that succeeds starves there. -/
theorem Starves.of_bind {step : ReadM α} {next : α → ReadM β} {value : α} {middle : RecordReader}
    (hstep : step reader = .ok value middle) (h : Starves (next value) middle) :
    Starves (step >>= next) reader := by
  obtain ⟨offset, last, hfault⟩ := h
  exact ⟨offset, last, (run_bind hstep).trans hfault⟩

/-- A read finds too few bytes. -/
theorem run_rawByte_nil (h : reader.rest = []) :
    rawByte reader = .error (.io reader.offset .truncated) reader := by
  rw [rawByte, h]

/-- A read finds too few bytes, and uses them up. -/
theorem run_rawWord_of_short (h : reader.rest.length ≤ 1) :
    rawWord reader = .error (.io reader.offset .truncated) { reader with rest := [] } := by
  unfold rawWord
  split
  · next hrest =>
    rw [hrest, List.length_cons, List.length_cons] at h
    omega
  · rfl

theorem starves_rawByte (h : reader.rest = []) : Starves rawByte reader :=
  ⟨_, _, run_rawByte_nil h⟩

theorem starves_rawWord {bytes missing : List UInt8} (h : reader.rest = bytes) {n : UInt16}
    (hmissing : missing ≠ []) (hbytes : bytes ++ missing = wordBytes n) :
    Starves rawWord reader := by
  refine ⟨_, _, run_rawWord_of_short ?_⟩
  have hlength := congrArg List.length hbytes
  have hpos := List.length_pos_iff.2 hmissing
  simp only [wordBytes, List.length_append, List.length_cons, List.length_nil] at hlength
  rw [h]
  omega

theorem starves_rawText {s : String} {missing : List UInt8} (hs : hasNul s = false)
    (hmissing : missing ≠ []) (hbytes : reader.rest ++ missing = textBytes s) :
    Starves rawText reader := by
  refine ⟨reader.offset + 2 * (reader.rest.length / 2), ?_⟩
  rw [rawText, splitUnits_cut hs hmissing hbytes]
  exact ⟨_, rfl⟩

/-- The rest of an entry that is cut short. -/
theorem starves_readPayload {entry : Entry} {missing : List UInt8}
    (hentry : entry.isWritable = true) (hmissing : missing ≠ [])
    (hbytes : reader.rest ++ missing = payloadBytes entry) :
    Starves (readPayload entry.type) reader := by
  have hsingle : ∀ byte : UInt8, reader.rest ++ missing = [byte] → reader.rest = [] := by
    intro byte hbyte
    rcases List.append_eq_singleton_iff.1 hbyte with ⟨hrest, -⟩ | ⟨-, hnone⟩
    · exact hrest
    · exact absurd hnone hmissing
  cases entry with
  | empty => exact absurd (List.append_eq_nil_iff.1 hbytes).2 hmissing
  | boolean value => exact (starves_rawByte (hsingle _ hbytes)).bind _
  | uint16 value => exact (starves_rawWord rfl hmissing hbytes).bind _
  | string value =>
    have hs : hasNul value = false := by simpa [Entry.isWritable] using hentry
    exact (starves_rawText hs hmissing hbytes).bind _
  | byte value => exact (starves_rawByte (hsingle _ hbytes)).bind _

end Running

/-- The reader stands inside a record before some entries, the last ones of the record, and the
    bytes end inside of these. -/
structure CutShort (reader : RecordReader) (entries : List Entry) : Prop where
  bytes : ∃ missing, missing ≠ [] ∧ reader.rest ++ missing = entries.flatMap Entry.bytes
  count : reader.entriesRead.toNat + entries.length = reader.entryCount.toNat

theorem CutShort.ne_nil {reader : RecordReader} {entries : List Entry}
    (h : reader.CutShort entries) : entries ≠ [] := by
  rintro rfl
  obtain ⟨missing, hmissing, hbytes⟩ := h.bytes
  exact hmissing (List.append_eq_nil_iff.1 hbytes).2

theorem CutShort.recordComplete {reader : RecordReader} {entries : List Entry}
    (h : reader.CutShort entries) : reader.recordComplete = false := by
  have hcount := h.count
  have hpos := List.length_pos_iff.2 h.ne_nil
  rw [RecordReader.recordComplete, decide_eq_false_iff_not, UInt16.le_iff_toNat_le]
  omega

theorem CutShort.length_le {reader : RecordReader} {entries : List Entry}
    (h : reader.CutShort entries) : entries.length ≤ reader.entryCount.toNat := by
  have hcount := h.count
  omega

/-- A tag and what it announces, cut short. -/
theorem starves_tagged {reader : RecordReader} {entry : Entry} {missing : List UInt8}
    {next : UInt8 → ReadM Entry} (hentry : entry.isWritable = true) (hmissing : missing ≠ [])
    (hbytes : reader.rest ++ missing = entry.bytes)
    (hnext : next entry.type.tag = readPayload entry.type) :
    Starves (rawByte >>= next) reader := by
  rw [bytes_eq] at hbytes
  cases hrest : reader.rest with
  | nil => exact (starves_rawByte hrest).bind next
  | cons tag part =>
    rw [hrest, List.cons_append] at hbytes
    obtain ⟨rfl, hpayload⟩ := List.cons.inj hbytes
    apply Starves.of_bind (rawByte_cons hrest)
    rw [hnext]
    exact starves_readPayload hentry hmissing hpayload

/-- A read of an entry that is cut short. -/
theorem starves_readEntry {reader : RecordReader} {entry : Entry} {missing : List UInt8}
    (hentry : entry.isWritable = true) (hopen : reader.recordComplete = false)
    (hmissing : missing ≠ []) (hbytes : reader.rest ++ missing = entry.bytes) :
    Starves readEntry reader := by
  have hclosed : ¬reader.recordComplete = true := by rw [hopen]; exact Bool.false_ne_true
  have hmoved : { reader with entriesRead := reader.entriesRead + 1 }.rest ++ missing =
      entry.bytes := hbytes
  unfold readEntry Starves
  rw [run_get_bind, if_neg hclosed, run_set_bind]
  exact starves_tagged hentry hmissing hmoved (by rw [EntryType.ofTag?_tag])

/-- One read before entries that are cut short. -/
theorem CutShort.readEntry {reader : RecordReader} {entry : Entry} {entries : List Entry}
    (h : reader.CutShort (entry :: entries)) (hentry : entry.isWritable = true) :
    Starves RecordReader.readEntry reader ∨
      ∃ next, RecordReader.readEntry reader = .ok entry next ∧ next.CutShort entries := by
  obtain ⟨missing, hmissing, hbytes⟩ := h.bytes
  rw [List.flatMap_cons] at hbytes
  rcases append_cut hbytes with ⟨lost, hlost, hcut⟩ | ⟨more, hrest, hmore⟩
  · exact Or.inl (starves_readEntry hentry h.recordComplete hlost hcut)
  · refine Or.inr ⟨_, readEntry_bytes hentry h.recordComplete hrest, ⟨missing, hmissing, hmore⟩, ?_⟩
    have hcount := h.count
    have hlt := reader.entryCount.toNat_lt
    rw [List.length_cons] at hcount
    show (reader.entriesRead + 1).toNat + entries.length = reader.entryCount.toNat
    rw [UInt16.toNat_add, show (1 : UInt16).toNat = 1 from rfl]
    omega

/-! ## Regular steps -/

/-- Before entries that are cut short a step starves, or it yields a value and leaves some of
    them. -/
def YieldsCut {α : Type} (step : ReadM α) (entries : List Entry) (value : α) (left : List Entry) :
    Prop :=
  ∀ reader, reader.CutShort entries →
    Starves step reader ∨ ∃ next, step reader = .ok value next ∧ next.CutShort left

/-- A step looks at the entries in front of it only: if it succeeds, it yields the same value before
    the same entries of any file, and starves or yields it where these are cut short. -/
def Regular {α : Type} (step : ReadM α) : Prop :=
  ∀ entries reader rest value next, (∀ entry ∈ entries, entry.isWritable = true) →
    reader.Holds entries rest → step reader = .ok value next →
    ∃ left, left <:+ entries ∧ Yields step entries value left ∧ YieldsCut step entries value left

section Steps

variable {α β : Type}

/-- What a step yields before some entries is all that it can yield there. -/
theorem Yields.eq_of_ok {step : ReadM α} {entries left : List Entry} {value other : α}
    {reader next : RecordReader} {rest : List UInt8} (h : Yields step entries value left)
    (hreader : reader.Holds entries rest) (hrun : step reader = .ok other next) :
    other = value ∧ next.Holds left rest := by
  obtain ⟨last, hlast, hholds⟩ := h reader rest hreader
  rw [hrun] at hlast
  cases hlast
  exact ⟨rfl, hholds⟩

theorem Regular.pure (value : α) : Regular (Pure.pure value) := by
  intro entries reader rest result next _ _ h
  obtain ⟨rfl, -⟩ := pure_ok h
  exact ⟨entries, List.suffix_refl entries, .pure value,
    fun reader hcut => Or.inr ⟨reader, rfl, hcut⟩⟩

theorem Regular.throw (fault : LoadError) : Regular (throw fault : ReadM α) := by
  intro entries reader rest value next _ _ h
  cases h

theorem YieldsCut.bind {step : ReadM α} {next : α → ReadM β} {value : α} {result : β}
    {entries more left : List Entry} (h : YieldsCut step entries value more)
    (hnext : YieldsCut (next value) more result left) :
    YieldsCut (step >>= next) entries result left := by
  intro reader hcut
  rcases h reader hcut with hstarves | ⟨middle, hmiddle, hcut⟩
  · exact Or.inl (hstarves.bind next)
  · rcases hnext middle hcut with hstarves | ⟨last, hlast, hcut⟩
    · exact Or.inl (.of_bind hmiddle hstarves)
    · exact Or.inr ⟨last, (run_bind hmiddle).trans hlast, hcut⟩

theorem Regular.bind {step : ReadM α} {next : α → ReadM β} (h : Regular step)
    (hnext : ∀ value, Regular (next value)) : Regular (step >>= next) := by
  intro entries reader rest result last hwritable hreader hrun
  obtain ⟨value, middle, hmiddle, hrun⟩ := bind_ok hrun
  obtain ⟨more, hmore, hyields, hcut⟩ :=
    h entries reader rest value middle hwritable hreader hmiddle
  obtain ⟨-, hholds⟩ := hyields.eq_of_ok hreader hmiddle
  obtain ⟨left, hleft, hyieldsnext, hcutnext⟩ := hnext value more middle rest result last
    (fun entry hentry => hwritable entry (hmore.subset hentry)) hholds hrun
  exact ⟨left, hleft.trans hmore, hyields.bind hyieldsnext, hcut.bind hcutnext⟩

theorem regular_readEntry : Regular readEntry := by
  intro entries reader rest value next hwritable hreader h
  cases entries with
  | nil =>
    have hclosed : ∀ {reader : RecordReader}, reader.recordComplete = true →
        readEntry reader = .ok .empty reader := by
      intro reader hcomplete
      unfold readEntry
      rw [run_get_bind, if_pos hcomplete]
      rfl
    rw [hclosed hreader.recordComplete] at h
    cases h
    exact ⟨[], List.suffix_refl [], fun reader rest hreader =>
      ⟨reader, hclosed hreader.recordComplete, hreader⟩, fun reader hcut => absurd rfl hcut.ne_nil⟩
  | cons entry entries =>
    obtain ⟨hentry, -⟩ := List.forall_mem_cons.1 hwritable
    obtain ⟨other, hother, -⟩ := hreader.readEntry hentry
    rw [h] at hother
    cases hother
    exact ⟨entries, List.suffix_cons value entries, .entry value hentry,
      fun reader hcut => hcut.readEntry hentry⟩

theorem YieldsCut.typed {expected : EntryType} {value? : Entry → Option α} {entry : Entry}
    {value : α} {entries left : List Entry} (h : YieldsCut readEntry entries entry left)
    (hvalue : value? entry = some value) :
    YieldsCut (readTyped expected value?) entries value left := by
  intro reader hreader
  unfold readTyped Starves
  rw [run_get_bind]
  rcases h reader hreader with hstarves | ⟨next, hnext, hcut⟩
  · exact Or.inl (hstarves.bind _)
  · refine Or.inr ⟨next, ?_, hcut⟩
    rw [run_bind hnext, hvalue]
    rfl

theorem regular_readTyped {expected : EntryType} (value? : Entry → Option α) :
    Regular (readTyped expected value?) := by
  intro entries reader rest value next hwritable hreader h
  obtain ⟨entry, middle, hentry, h⟩ := bind_ok (get_bind_ok h)
  cases hvalue : value? entry with
  | none =>
    rw [hvalue] at h
    cases h
  | some found =>
    rw [hvalue] at h
    obtain ⟨rfl, -⟩ := pure_ok h
    obtain ⟨left, hleft, hyields, hcut⟩ :=
      regular_readEntry entries reader rest entry middle hwritable hreader hentry
    refine ⟨left, hleft, ?_, hcut.typed hvalue⟩
    intro reader rest hreader
    obtain ⟨next, hnext, hholds⟩ := hyields reader rest hreader
    refine ⟨next, ?_, hholds⟩
    rw [readTyped, run_get_bind, run_bind hnext, hvalue]
    rfl

theorem regular_readNumber : Regular readNumber := regular_readTyped _

theorem regular_readText : Regular readText := regular_readTyped _

theorem regular_readBool : Regular readBool := regular_readTyped _

end Steps

end RecordReader

/-! ## Records -/

namespace TableRecord

open RecordReader

variable {α : Type} {item : ReadM α}

theorem regular_readCode {field : CodeField} (ofCode? : UInt16 → Option α) :
    Regular (readCode field ofCode?) := by
  apply regular_readNumber.bind
  intro code
  cases ofCode? code with
  | none => exact .throw _
  | some value => exact .pure value

theorem regular_readTimes (h : Regular item) (n : Nat) (done : List α) :
    Regular (readTimes item n done) := by
  induction n generalizing done with
  | zero => exact .pure done.reverse
  | succ n ih => exact h.bind fun value => ih (value :: done)

/-- Items are read up to the end of the record with any bound that all entries allow. -/
theorem readUntilComplete_regular (h : Regular item)
    (hitem : ∀ reader value next, item reader = .ok value next → next.left < reader.left)
    {n : Nat} {done values : List α} {entries : List Entry} {reader next : RecordReader}
    {rest : List UInt8} (hwritable : ∀ entry ∈ entries, entry.isWritable = true)
    (hreader : reader.Holds entries rest) (hn : entries.length ≤ n)
    (hrun : readUntilComplete item n done reader = .ok values next) (m : Nat)
    (hm : entries.length ≤ m) :
    Yields (readUntilComplete item m done) entries values [] ∧
      YieldsCut (readUntilComplete item m done) entries values [] := by
  induction n generalizing done entries reader m with
  | zero =>
    obtain rfl := List.length_eq_zero_iff.1 (Nat.le_zero.1 hn)
    obtain ⟨rfl, -⟩ := (Yields.complete item 0 done).eq_of_ok hreader hrun
    exact ⟨.complete item m done, fun reader hcut => absurd rfl hcut.ne_nil⟩
  | succ n ih =>
    cases hentries : entries with
    | nil =>
      subst hentries
      obtain ⟨rfl, -⟩ := (Yields.complete item (n + 1) done).eq_of_ok hreader hrun
      exact ⟨.complete item m done, fun reader hcut => absurd rfl hcut.ne_nil⟩
    | cons entry others =>
      rw [← hentries]
      have hne : entries ≠ [] := by
        rw [hentries]
        exact List.cons_ne_nil entry others
      have hopen : ∀ {reader : RecordReader} {rest : List UInt8}, reader.Holds entries rest →
          ¬reader.recordComplete = true := by
        intro reader rest hreader
        rw [hreader.recordComplete_iff]
        exact hne
      replace hrun := get_bind_ok hrun
      rw [if_neg (hopen hreader)] at hrun
      obtain ⟨value, middle, hvalue, hrun⟩ := bind_ok hrun
      obtain ⟨more, hmore, hyields, hcut⟩ :=
        h entries reader rest value middle hwritable hreader hvalue
      obtain ⟨-, hholds⟩ := hyields.eq_of_ok hreader hvalue
      have hless := hitem reader value middle hvalue
      rw [left, left, hholds.length_eq, hreader.length_eq] at hless
      obtain ⟨m, rfl⟩ : ∃ k, m = k + 1 := ⟨m - 1, by omega⟩
      obtain ⟨hyieldsmore, hcutmore⟩ :=
        ih (fun entry hentry => hwritable entry (hmore.subset hentry)) hholds (by omega) hrun m
          (by omega)
      constructor
      · intro reader rest hreader
        rw [readUntilComplete, run_get_bind, if_neg (hopen hreader)]
        exact hyields.bind hyieldsmore reader rest hreader
      · intro reader hreader
        have hclosed : ¬reader.recordComplete = true := by
          rw [hreader.recordComplete]
          exact Bool.false_ne_true
        unfold readUntilComplete Starves
        rw [run_get_bind, if_neg hclosed]
        exact hcut.bind hcutmore reader hreader

theorem regular_readItems (h : Regular item)
    (hitem : ∀ reader value next, item reader = .ok value next → next.left < reader.left) :
    Regular (readItems item) := by
  intro entries reader rest values next hwritable hreader hrun
  have hall := readUntilComplete_regular h hitem hwritable hreader hreader.length_le
    (get_bind_ok hrun)
  refine ⟨[], List.nil_suffix, ?_, ?_⟩
  · intro reader rest hreader
    exact (hall reader.entryCount.toNat hreader.length_le).1 reader rest hreader
  · intro reader hreader
    exact (hall reader.entryCount.toNat hreader.length_le).2 reader hreader

theorem regular_readProperty : Regular readProperty :=
  regular_readNumber.bind fun _ => regular_readText.bind fun _ => regular_readText.bind fun _ =>
    .pure _

theorem regular_readTableCounts : Regular readTableCounts :=
  regular_readNumber.bind fun _ => regular_readNumber.bind fun _ => regular_readNumber.bind fun _ =>
    regular_readNumber.bind fun _ => regular_readNumber.bind fun _ =>
      regular_readNumber.bind fun _ => .pure _

theorem regular_readInitialStates : Regular readInitialStates :=
  regular_readNumber.bind fun _ => regular_readNumber.bind fun _ => .pure _

theorem regular_readSymbol : Regular readSymbol :=
  regular_readNumber.bind fun _ => regular_readText.bind fun _ =>
    (regular_readCode _).bind fun _ => .pure _

theorem regular_readGroup : Regular readGroup :=
  regular_readNumber.bind fun _ => regular_readText.bind fun _ => regular_readNumber.bind fun _ =>
    regular_readNumber.bind fun _ => regular_readNumber.bind fun _ =>
      (regular_readCode _).bind fun _ => (regular_readCode _).bind fun _ =>
        regular_readEntry.bind fun _ => regular_readNumber.bind fun _ =>
          (regular_readTimes regular_readNumber _ _).bind fun _ => .pure _

theorem regular_readRange : Regular readRange :=
  regular_readNumber.bind fun _ => regular_readNumber.bind fun _ => .pure _

theorem regular_readCharacterSet : Regular readCharacterSet := by
  apply regular_readNumber.bind fun _ => regular_readNumber.bind fun _ =>
    regular_readNumber.bind fun _ => regular_readEntry.bind fun _ => .bind ?_ fun _ => .pure _
  apply regular_readItems regular_readRange
  intro reader range next hrange
  have hleft := readRange_ok hrange
  omega

theorem regular_readProduction : Regular readProduction := by
  apply regular_readNumber.bind fun _ => regular_readNumber.bind fun _ =>
    regular_readEntry.bind fun _ => .bind ?_ fun _ => .pure _
  apply regular_readItems regular_readNumber
  intro reader symbol next hsymbol
  have hleft := readNumber_ok hsymbol
  omega

theorem regular_readEdge : Regular readEdge :=
  regular_readNumber.bind fun _ => regular_readNumber.bind fun _ => regular_readEntry.bind fun _ =>
    .pure _

theorem regular_readDfaState : Regular readDfaState := by
  apply regular_readNumber.bind fun _ => regular_readBool.bind fun _ =>
    regular_readNumber.bind fun _ => regular_readEntry.bind fun _ => .bind ?_ fun _ => .pure _
  apply regular_readItems regular_readEdge
  intro reader edge next hedge
  have hleft := readEdge_ok hedge
  omega

theorem regular_readAction : Regular readAction := by
  apply regular_readNumber.bind fun _ => regular_readNumber.bind fun kind =>
    regular_readNumber.bind fun target => regular_readEntry.bind fun _ => ?_
  cases Action.ofTable? kind target with
  | none => exact .throw _
  | some action => exact .pure _

theorem regular_readLrState : Regular readLrState := by
  apply regular_readNumber.bind fun _ => regular_readEntry.bind fun _ => .bind ?_ fun _ => .pure _
  apply regular_readItems regular_readAction
  intro reader action next haction
  have hleft := readAction_ok haction
  omega

/-- Every kind of record is read by a regular step. -/
theorem regular_readBody (counted : Bool) (kind : RecordKind) :
    Regular (readBody counted kind) := by
  cases kind with
  | property => exact regular_readProperty
  | tableCounts => exact regular_readTableCounts
  | initialStates => exact regular_readInitialStates
  | symbol => cases counted with | false => exact .throw _ | true => exact regular_readSymbol
  | production =>
    cases counted with | false => exact .throw _ | true => exact regular_readProduction
  | dfaState => cases counted with | false => exact .throw _ | true => exact regular_readDfaState
  | lrState => cases counted with | false => exact .throw _ | true => exact regular_readLrState
  | characterSet =>
    cases counted with | false => exact .throw _ | true => exact regular_readCharacterSet
  | group => cases counted with | false => exact .throw _ | true => exact regular_readGroup

end TableRecord

end GoldTables

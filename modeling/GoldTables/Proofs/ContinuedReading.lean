import GoldTables.Proofs.PartialReading

/-!
# Reading on behind faults

A fault does not end the reading: the caller may go on with any other call, and
`turns` lists what each of its calls answers and where it leaves the reader. As
long as no call fails for want of bytes the offset counts the bytes that are
gone, whatever else was wrong. The first call that does fail for want of bytes
tells where a read of one byte or two found too few of them. From then on the
reader has no bytes and keeps its offset, and what it answers only depends on
whether entries of the record it is in are left.

Results:
* `accounts_run`: every call accounts for the bytes that it takes.
* `answer_run_of_rest`, `stays_run_of_rest`: what a reader without bytes answers, and that it
  stays where it is.
* `accounted_turns`: the calls up to the first one that comes short, and those behind it.
* `open?_turns`: readers of any bytes, and any calls.
-/

namespace GoldTables

namespace RecordReader

/-! ## Calls -/

/-- Something that a caller asks a reader to do. -/
inductive Call where
  | nextRecord
  | read (access : Access)
  | atEnd
  deriving DecidableEq

/-- What a call yields. -/
inductive Reply where
  | more (found : Bool)
  | entry (entry : Entry)
  | ended (atEnd : Bool)
  deriving DecidableEq

namespace Call

/-- Does what is asked for. -/
def run : Call → ReadM Reply
  | nextRecord => do return .more (← RecordReader.nextRecord)
  | read access => do return .entry (← access.read)
  | atEnd => do return .ended (← get).atEnd

/-- What a reader without bytes answers, at an offset: a read inside a record fails, and one behind
    the last entry of a record sees an empty entry. -/
def starvedAnswer (complete : Bool) (offset : Nat) : Call → Except LoadError Reply
  | nextRecord => if complete then .ok (.more false) else .error (.io offset .truncated)
  | read access =>
    if complete then (access.answer .empty offset).map .entry else .error (.io offset .truncated)
  | atEnd => .ok (.ended true)

end Call

/-- A call, what it answered, and the reader before and behind it. -/
structure Turn where
  before : RecordReader
  call : Call
  answer : Except LoadError Reply
  after : RecordReader

/-- The calls of a caller who goes on behind every answer. -/
def turns : List Call → RecordReader → List Turn
  | [], _ => []
  | call :: calls, reader =>
    let (answer, next) := outcome call.run reader
    ⟨reader, call, answer, next⟩ :: turns calls next

/-- The offset counts the bytes that are gone, and the others are left. -/
structure Counts (reader : RecordReader) (bytes : List UInt8) : Prop where
  rest : reader.rest = bytes.drop reader.offset
  total : reader.offset + reader.rest.length = bytes.length

namespace Turn

/-- The call did not fail for want of bytes, and the offset counts the bytes before and behind
    it. -/
structure Counted (turn : Turn) (bytes : List UInt8) : Prop where
  answer : ∀ fault, turn.answer = .error fault → fault.isIo = false
  before : turn.before.Counts bytes
  after : turn.after.Counts bytes

/-- The call failed for want of bytes: it tells the offset where a read found too few of them, and
    leaves none. -/
structure ComesShort (turn : Turn) (bytes : List UInt8) : Prop where
  answer : turn.answer = .error (.io turn.after.offset .truncated)
  before : turn.before.Counts bytes
  read : ∃ stopped : RecordReader, turn.before.Follows stopped ∧ stopped.Counts bytes ∧
    stopped.offset = turn.after.offset ∧
      stopped.ComesShort (.io turn.after.offset .truncated) turn.after
  atEnd : turn.after.atEnd = true

/-- The call was answered without bytes, and left the reader where it was. -/
structure Starved (turn : Turn) (offset : Nat) : Prop where
  answer : turn.answer = turn.call.starvedAnswer turn.before.recordComplete offset
  offset : turn.after.offset = offset
  atEnd : turn.after.atEnd = true

end Turn

/-- Calls are counted up to the first one that comes short, and starved behind it. -/
inductive Accounted (bytes : List UInt8) : List Turn → Prop where
  | done : Accounted bytes []
  | counted {turn : Turn} {later : List Turn} (h : turn.Counted bytes)
      (hlater : Accounted bytes later) : Accounted bytes (turn :: later)
  | short {turn : Turn} {later : List Turn} (h : turn.ComesShort bytes)
      (hlater : ∀ starved ∈ later, starved.Starved turn.after.offset) :
      Accounted bytes (turn :: later)

/-! ## What one call does -/

section Calls

variable {α : Type} {reader next : RecordReader} {bytes : List UInt8} {fault : LoadError}

theorem outcome_ok {step : ReadM α} {value : α} (h : step reader = .ok value next) :
    outcome step reader = (.ok value, next) := by
  rw [outcome, h]

theorem outcome_error {step : ReadM α} (h : step reader = .error fault next) :
    outcome step reader = (.error fault, next) := by
  rw [outcome, h]

theorem outcome_map {β : Type} (step : ReadM α) (f : α → β) (reader : RecordReader) :
    outcome (step >>= fun value => pure (f value)) reader =
      ((outcome step reader).1.map f, (outcome step reader).2) := by
  cases hstep : step reader with
  | ok value next =>
    have hrun : (step >>= fun value => pure (f value)) reader = .ok (f value) next :=
      run_bind hstep
    rw [outcome_ok hstep, outcome_ok hrun]
    rfl
  | error fault next =>
    rw [outcome_error hstep, outcome_error (run_bind_error hstep)]
    rfl

theorem ComesShort.eq (h : reader.ComesShort fault next) :
    fault = .io reader.offset .truncated ∧ next = { reader with rest := [] } := by
  cases h with
  | byte h =>
    unfold rawByte at h
    split at h
    · cases h
    · next hrest =>
      cases h
      exact ⟨rfl, by rw [← hrest]⟩
  | word h =>
    unfold rawWord at h
    split at h
    · cases h
    · cases h
      exact ⟨rfl, rfl⟩

theorem Counts.follows (h : reader.Counts bytes) (hnext : reader.Follows next) :
    next.Counts bytes := by
  obtain ⟨taken, hrest, hoffset⟩ := hnext.taken
  refine ⟨?_, hnext.size_eq.trans h.total⟩
  rw [hoffset, ← List.drop_drop, ← h.rest, hrest, List.drop_left]

/-- A read takes an entry as it is, or a value of a type out of it. -/
theorem Access.read_cases (access : Access) : access.read = readEntry ∨
    ∃ (α : Type) (expected : EntryType) (value? : Entry → Option α) (hold : α → Entry),
      access.read = readTyped expected value? >>= fun value => pure (hold value) := by
  cases access with
  | entry => exact .inl rfl
  | number | text | bool | byte => exact .inr ⟨_, _, _, _, rfl⟩

theorem accounts_access (access : Access) : Accounts access.read := by
  rcases access.read_cases with hread | ⟨α, expected, value?, hold, hread⟩
  · rw [hread]
    exact accounts_readEntry
  · rw [hread]
    refine Accounts.bind (Accounts.get.bind fun _ => accounts_readEntry.bind fun entry => ?_)
      fun _ => .pure _
    cases value? entry with
    | some value => exact .pure value
    | none => exact .throw rfl

theorem accounts_run (call : Call) : Accounts call.run := by
  cases call with
  | nextRecord => exact accounts_nextRecord.bind fun _ => .pure _
  | read access => exact (accounts_access access).bind fun _ => .pure _
  | atEnd => exact Accounts.get.bind fun _ => .pure _

/-- A call leaves the reader behind the bytes that were taken, or where it comes short. -/
theorem outcome_run_cases (call : Call) (reader : RecordReader) :
    ((∀ fault, (outcome call.run reader).1 = .error fault → fault.isIo = false) ∧
        reader.Follows (outcome call.run reader).2) ∨
      ∃ stopped fault, (outcome call.run reader).1 = .error fault ∧ reader.Follows stopped ∧
        stopped.ComesShort fault (outcome call.run reader).2 := by
  have hleads := accounts_run call reader
  cases hrun : call.run reader with
  | ok reply next =>
    rw [hrun] at hleads
    rw [outcome_ok hrun]
    exact .inl ⟨nofun, hleads⟩
  | error fault next =>
    rw [hrun] at hleads
    rw [outcome_error hrun]
    rcases hleads with ⟨hother, hnext⟩ | ⟨stopped, hstopped, hshort⟩
    · refine .inl ⟨fun other hfault => ?_, hnext⟩
      rwa [← Except.error.inj hfault]
    · exact .inr ⟨stopped, fault, rfl, hstopped, hshort⟩

theorem entriesRead_le_run (call : Call) (h : reader.entriesRead ≤ reader.entryCount) :
    (outcome call.run reader).2.entriesRead ≤ (outcome call.run reader).2.entryCount := by
  rcases outcome_run_cases call reader with ⟨-, hnext⟩ | ⟨stopped, fault, -, hstopped, hshort⟩
  · exact hnext.entries h
  · rw [hshort.eq.2]
    exact hstopped.entries h

theorem isIo_of_rawText (h : rawText reader = .error fault next) : fault.isIo = true := by
  rw [rawText] at h
  split at h
  · cases h
  · cases h
    rfl

end Calls

/-! ## Readers without bytes -/

section Starved

variable {reader next : RecordReader}

theorem Follows.rest_eq_nil (h : reader.Follows next) (hrest : reader.rest = []) :
    next.rest = [] ∧ next.offset = reader.offset := by
  obtain ⟨taken, htaken, hoffset⟩ := h.taken
  rw [hrest] at htaken
  obtain ⟨rfl, hnext⟩ := List.append_eq_nil_iff.1 htaken.symm
  exact ⟨hnext, hoffset⟩

theorem run_readEntry_of_rest (h : ¬reader.recordComplete = true) (hrest : reader.rest = []) :
    readEntry reader = .error (.io reader.offset .truncated)
      { reader with entriesRead := reader.entriesRead + 1 } := by
  unfold readEntry
  rw [run_get_bind, if_neg h, run_set_bind]
  exact run_bind_error (run_rawByte_nil hrest)

theorem run_nextRecord_of_complete (h : reader.recordComplete = true) (hrest : reader.rest = []) :
    nextRecord reader = .ok false reader := by
  have hnone : reader.entryCount.toNat - reader.entriesRead.toNat = 0 := recordComplete_iff_left.1 h
  have hend : reader.atEnd = true := by rw [atEnd, hrest]; rfl
  unfold nextRecord
  rw [run_get_bind, hnone, run_bind (skipEntries_zero reader), run_get_bind, if_pos hend]
  rfl

theorem run_nextRecord_of_rest (h : ¬reader.recordComplete = true) (hrest : reader.rest = []) :
    nextRecord reader = .error (.io reader.offset .truncated)
      { reader with entriesRead := reader.entriesRead + 1 } := by
  obtain ⟨more, hmore⟩ := Nat.exists_eq_succ_of_ne_zero (mt recordComplete_iff_left.2 h)
  rw [left] at hmore
  unfold nextRecord
  rw [run_get_bind, hmore, skipEntries]
  exact run_bind_error (run_bind_error (run_readEntry_of_rest h hrest))

/-- If the entry cannot be read, neither can its value. -/
theorem run_access_error {fault : LoadError} (access : Access)
    (h : readEntry reader = .error fault next) : access.read reader = .error fault next := by
  rcases access.read_cases with hread | ⟨α, expected, value?, hold, hread⟩
  · rw [hread]
    exact h
  · rw [hread]
    refine run_bind_error ?_
    rw [readTyped, run_get_bind]
    exact run_bind_error h

/-- What a reader without bytes answers depends on whether entries of its record are left. -/
theorem answer_run_of_rest (call : Call) (hrest : reader.rest = []) :
    (outcome call.run reader).1 = call.starvedAnswer reader.recordComplete reader.offset := by
  cases call with
  | nextRecord =>
    rw [Call.run, outcome_map, Call.starvedAnswer]
    by_cases hcomplete : reader.recordComplete = true
    · rw [if_pos hcomplete, outcome_ok (run_nextRecord_of_complete hcomplete hrest)]
      rfl
    · rw [if_neg hcomplete, outcome_error (run_nextRecord_of_rest hcomplete hrest)]
      rfl
  | read access =>
    rw [Call.run, outcome_map, Call.starvedAnswer]
    by_cases hcomplete : reader.recordComplete = true
    · rw [if_pos hcomplete, outcome_read access (run_readEntry_of_complete hcomplete)]
    · rw [if_neg hcomplete,
        outcome_error (run_access_error access (run_readEntry_of_rest hcomplete hrest))]
      rfl
  | atEnd =>
    show Except.ok (Reply.ended reader.rest.isEmpty) = _
    rw [hrest]
    rfl

/-- A reader without bytes stays where it is. -/
theorem stays_run_of_rest (call : Call) (hrest : reader.rest = []) :
    (outcome call.run reader).2.rest = [] ∧
      (outcome call.run reader).2.offset = reader.offset := by
  rcases outcome_run_cases call reader with ⟨-, hnext⟩ | ⟨stopped, fault, -, hstopped, hshort⟩
  · exact hnext.rest_eq_nil hrest
  · rw [hshort.eq.2]
    exact ⟨rfl, (hstopped.rest_eq_nil hrest).2⟩

end Starved

/-! ## What all calls do -/

variable {reader : RecordReader} {bytes : List UInt8}

theorem entriesRead_le_turns (calls : List Call) (h : reader.entriesRead ≤ reader.entryCount) :
    ∀ turn ∈ turns calls reader, turn.after.entriesRead ≤ turn.after.entryCount := by
  induction calls generalizing reader with
  | nil => exact fun turn hturn => absurd hturn List.not_mem_nil
  | cons call calls ih =>
    have hnext := entriesRead_le_run call h
    exact List.forall_mem_cons.2 ⟨hnext, ih hnext⟩

/-- A reader without bytes stays without them at its offset. -/
theorem starved_turns (calls : List Call) (hrest : reader.rest = []) :
    ∀ turn ∈ turns calls reader, turn.Starved reader.offset := by
  induction calls generalizing reader with
  | nil => exact fun turn hturn => absurd hturn List.not_mem_nil
  | cons call calls ih =>
    obtain ⟨hnone, hoffset⟩ := stays_run_of_rest call hrest
    refine List.forall_mem_cons.2 ⟨⟨answer_run_of_rest call hrest, hoffset, ?_⟩, ?_⟩
    · exact List.isEmpty_iff.2 hnone
    · rw [← hoffset]
      exact ih hnone

theorem accounted_turns (calls : List Call) (h : reader.Counts bytes) :
    Accounted bytes (turns calls reader) := by
  induction calls generalizing reader with
  | nil => exact .done
  | cons call calls ih =>
    rcases outcome_run_cases call reader with ⟨hanswer, hnext⟩ |
      ⟨stopped, fault, hfault, hstopped, hshort⟩
    · exact .counted ⟨hanswer, h, h.follows hnext⟩ (ih (h.follows hnext))
    · -- the read that came short left no bytes, and every call behind it finds none
      obtain ⟨rfl, hafter⟩ := hshort.eq
      have hnone : (outcome call.run reader).2.rest = [] := by rw [hafter]
      have hoffset : stopped.offset = (outcome call.run reader).2.offset := by rw [hafter]
      rw [hoffset] at hfault hshort
      refine .short ⟨hfault, h, ?_, List.isEmpty_iff.2 hnone⟩ (starved_turns calls hnone)
      exact ⟨stopped, hstopped, h.follows hstopped, hoffset, hshort⟩

end RecordReader

open RecordReader

/-- A file can be opened unless its header comes short, and then the fault tells where. With any
    calls, and however they are answered, no more entries are read than the current record has. Up to
    the first call that fails for want of bytes the offset counts the bytes. That call tells where a
    read found too few of them, and those behind it keep the offset: they fail there, or see the end
    of the record. -/
theorem open?_turns (bytes : List UInt8) :
    (∀ fault, open? bytes = .error fault → ∃ stopped next : RecordReader,
        stopped.Counts bytes ∧ fault = .io stopped.offset .truncated ∧
          stopped.ComesShort fault next) ∧
      ∀ reader, open? bytes = .ok reader → reader.Counts bytes ∧ ∀ calls : List Call,
        (∀ turn ∈ turns calls reader, turn.after.entriesRead ≤ turn.after.entryCount) ∧
          Accounted bytes (turns calls reader) := by
  have hstart : Counts ⟨"", bytes, 0, 0, 0⟩ bytes := ⟨rfl, Nat.zero_add _⟩
  have hheader := accounts_rawText ⟨"", bytes, 0, 0, 0⟩
  unfold open?
  cases hrun : rawText ⟨"", bytes, 0, 0, 0⟩ with
  | error other next =>
    rw [hrun] at hheader
    refine ⟨fun fault hfault => ?_, nofun⟩
    cases hfault
    rcases hheader with ⟨hother, -⟩ | ⟨stopped, hstopped, hshort⟩
    · rw [isIo_of_rawText hrun] at hother
      cases hother
    · exact ⟨stopped, next, hstart.follows hstopped, hshort.eq.1, hshort⟩
  | ok header next =>
    rw [hrun] at hheader
    refine ⟨nofun, fun reader hreader => ?_⟩
    cases hreader
    have hnext := hstart.follows hheader
    have hcounts : Counts { next with header } bytes := ⟨hnext.rest, hnext.total⟩
    exact ⟨hcounts, fun calls => ⟨entriesRead_le_turns calls (hheader.entries UInt16.zero_le),
      accounted_turns calls hcounts⟩⟩

/-- A record of three entries. The second one is cut. -/
def cutRecord : List UInt8 := [104, 0, 0, 0, 77, 3, 0, 73, 5, 0, 73, 6]

/-- Calls that go on behind a value of the wrong type, behind the number that is cut, and behind the
    last entry. -/
def cutRecordCalls : List Call :=
  [.nextRecord, .read .text, .atEnd, .read .number, .nextRecord, .read .entry, .read .bool,
    .nextRecord, .atEnd]

/-- The reader before the record that is cut. -/
def cutRecordReader : RecordReader := ⟨"h", cutRecord.drop 4, 4, 0, 0⟩

/-- A record that is cut, and a header that is. -/
theorem open?_turns_cutRecord :
    open? cutRecord = .ok cutRecordReader ∧ cutRecordReader.Counts cutRecord ∧
    (turns cutRecordCalls cutRecordReader).map (fun turn => (turn.answer, turn.after.offset)) =
      [(.ok (.more true), 7), (.error (.typeMismatch .string .uint16 7), 10),
        (.ok (.ended false), 10), (.error (.io 11 .truncated), 11),
        (.error (.io 11 .truncated), 11), (.ok (.entry .empty), 11),
        (.error (.typeMismatch .boolean .empty 11), 11), (.ok (.more false), 11),
        (.ok (.ended true), 11)] ∧
    (∀ turn ∈ turns cutRecordCalls cutRecordReader,
      turn.after.entriesRead ≤ turn.after.entryCount) ∧
    Accounted cutRecord (turns cutRecordCalls cutRecordReader) ∧
    open? [104, 0, 104] = .error (.io 2 .truncated) ∧
    ∃ stopped next : RecordReader, stopped.Counts [104, 0, 104] ∧
      LoadError.io 2 .truncated = .io stopped.offset .truncated ∧
        stopped.ComesShort (.io 2 .truncated) next := by
  obtain ⟨hcounts, hturns⟩ := (open?_turns cutRecord).2 cutRecordReader rfl
  obtain ⟨hentries, haccounted⟩ := hturns cutRecordCalls
  exact ⟨rfl, hcounts, by decide +kernel, hentries, haccounted, rfl,
    (open?_turns [104, 0, 104]).1 _ rfl⟩

end GoldTables

import GoldTables.Proofs.RegularReading
import GoldTables.Proofs.WrittenGrammars
import Mathlib.Data.List.GetD

/-!
# Records are found again however they are read

A caller may read none of the entries of a record, some, all, or more than
there are, and may ask for values of the wrong types. `browse` goes through the
records of a file with a plan of reads for each of them, and goes on behind
every answer. Whatever the plans are, each record is found, each read sees the
entry whose turn it is, and the offset tells where it stands: a step that
succeeds accounts for the bytes that it takes, so that the offset follows from
the bytes that are left.

Results:
* `accounts_readEntry`, `accounts_nextRecord`: the offset counts the bytes that were read.
* `Stands.outcome_read`: what a read sees inside a record, and where it leaves the reader.
* `fileBytes_browse`: which files can be written, and what all the reads of a file see.
-/

namespace GoldTables

/-- Whether the source of the bytes failed. -/
def LoadError.isIo : LoadError → Bool
  | .io _ _ => true
  | _ => false

namespace RecordReader

/-! ## Offsets count bytes -/

/-- The number of bytes that were read or are left. -/
def size (reader : RecordReader) : Nat := reader.offset + reader.rest.length

/-- The second reader is the first one behind bytes that were taken and counted, and has read no
    more entries than there are if the first one has not. -/
structure Follows (reader next : RecordReader) : Prop where
  taken : ∃ taken, reader.rest = taken ++ next.rest ∧ next.offset = reader.offset + taken.length
  entries : reader.entriesRead ≤ reader.entryCount → next.entriesRead ≤ next.entryCount

/-- A read of one byte or two fails where the reader stands: the fault, and the reader behind it. -/
inductive ComesShort (reader : RecordReader) (fault : LoadError) (next : RecordReader) : Prop where
  | byte (h : rawByte reader = .error fault next)
  | word (h : rawWord reader = .error fault next)

section Follows

variable {reader middle next : RecordReader}

theorem Follows.refl (reader : RecordReader) : reader.Follows reader := ⟨⟨[], rfl, rfl⟩, id⟩

/-- No byte is taken. -/
theorem Follows.of_rest (hrest : next.rest = reader.rest) (hoffset : next.offset = reader.offset)
    (hentries : reader.entriesRead ≤ reader.entryCount → next.entriesRead ≤ next.entryCount) :
    reader.Follows next :=
  ⟨⟨[], by rw [hrest, List.nil_append], by rw [hoffset]; rfl⟩, hentries⟩

theorem Follows.trans (h : reader.Follows middle) (hnext : middle.Follows next) :
    reader.Follows next := by
  obtain ⟨first, hfirst, hmiddle⟩ := h.taken
  obtain ⟨second, hsecond, hoffset⟩ := hnext.taken
  refine ⟨⟨first ++ second, ?_, ?_⟩, fun hread => hnext.entries (h.entries hread)⟩
  · rw [hfirst, hsecond, List.append_assoc]
  · rw [hoffset, hmiddle, List.length_append, Nat.add_assoc]

/-- Bytes that were taken are counted. -/
theorem Follows.size_eq (h : reader.Follows next) : next.size = reader.size := by
  obtain ⟨taken, hrest, hoffset⟩ := h.taken
  rw [size, size, hrest, hoffset, List.length_append]
  omega

end Follows

/-- Where a step leaves the reader: behind the bytes that were taken, or where a read failed for
    want of bytes, and with the fault of that read. -/
def LeadsTo {α : Type} (reader : RecordReader) :
    EStateM.Result LoadError RecordReader α → Prop
  | .ok _ next => reader.Follows next
  | .error fault next =>
    fault.isIo = false ∧ reader.Follows next ∨
      ∃ stopped : RecordReader, reader.Follows stopped ∧ stopped.ComesShort fault next

theorem Follows.leadsTo {α : Type} {reader middle : RecordReader}
    {result : EStateM.Result LoadError RecordReader α} (h : reader.Follows middle)
    (hresult : middle.LeadsTo result) : reader.LeadsTo result := by
  cases result with
  | ok value next => exact h.trans hresult
  | error fault next =>
    rcases hresult with ⟨hfault, hnext⟩ | ⟨stopped, hstopped, hshort⟩
    · exact .inl ⟨hfault, h.trans hnext⟩
    · exact .inr ⟨stopped, h.trans hstopped, hshort⟩

/-- The step counts the bytes that it takes. For want of bytes it fails as the first of its reads
    that finds too few of them. -/
def Accounts {α : Type} (step : ReadM α) : Prop :=
  ∀ reader : RecordReader, reader.LeadsTo (step reader)

section Accounts

variable {α β : Type}

theorem Accounts.follows {step : ReadM α} (h : Accounts step) {reader next : RecordReader}
    {value : α} (hstep : step reader = .ok value next) : reader.Follows next := by
  have hleads := h reader
  rwa [hstep] at hleads

theorem Accounts.pure (value : α) : Accounts (Pure.pure value : ReadM α) := Follows.refl

theorem Accounts.get : Accounts (MonadState.get : ReadM RecordReader) := Follows.refl

theorem Accounts.modify {change : RecordReader → RecordReader}
    (h : ∀ reader : RecordReader, reader.Follows (change reader)) : Accounts (modify change) := h

theorem Accounts.throw {fault : LoadError} (h : fault.isIo = false) :
    Accounts (throw fault : ReadM α) := fun reader => .inl ⟨h, .refl reader⟩

theorem Accounts.bind {step : ReadM α} {next : α → ReadM β} (h : Accounts step)
    (hnext : ∀ value, Accounts (next value)) : Accounts (step >>= next) := by
  intro reader
  have hreader := h reader
  cases hstep : step reader with
  | ok value middle =>
    rw [hstep] at hreader
    rw [run_bind hstep]
    exact Follows.leadsTo hreader (hnext value middle)
  | error fault last =>
    rw [hstep] at hreader
    rw [run_bind_error hstep]
    exact hreader

theorem accounts_rawByte : Accounts rawByte := by
  intro reader
  match hrest : reader.rest with
  | [] =>
    have hrun := run_rawByte_nil hrest
    rw [hrun]
    exact .inr ⟨reader, .refl reader, .byte hrun⟩
  | byte :: rest =>
    rw [rawByte, hrest]
    exact ⟨⟨[byte], hrest, rfl⟩, id⟩

theorem accounts_rawWord : Accounts rawWord := by
  intro reader
  match hrest : reader.rest with
  | [] | [_] =>
    have hshort : reader.rest.length ≤ 1 := by simp [hrest]
    have hrun := run_rawWord_of_short hshort
    rw [hrun]
    exact .inr ⟨reader, .refl reader, .word hrun⟩
  | low :: high :: rest =>
    rw [rawWord, hrest]
    exact ⟨⟨[low, high], hrest, rfl⟩, id⟩

/-- A text takes two bytes for each of its numbers, and two for the zero. -/
theorem taken_of_splitUnits {units read : List UInt16} {bytes rest : List UInt8}
    (h : splitUnits units bytes = some (read, rest)) :
    ∃ taken, bytes = taken ++ rest ∧
      2 * units.length + taken.length = 2 * (read.length + 1) := by
  induction units, bytes using splitUnits.induct with
  | case1 units low high bytes unit hzero =>
    rw [splitUnits, if_pos hzero] at h
    cases h
    refine ⟨[low, high], rfl, ?_⟩
    rw [List.length_reverse]
    rfl
  | case2 units low high bytes unit hzero ih =>
    rw [splitUnits, if_neg hzero] at h
    obtain ⟨taken, rfl, hlength⟩ := ih h
    refine ⟨low :: high :: taken, rfl, ?_⟩
    simp only [List.length_cons] at hlength ⊢
    omega
  | case3 units bytes hshort =>
    rw [splitUnits.eq_def] at h
    split at h
    · exact absurd rfl (hshort _ _ _)
    · cases h

theorem accounts_rawText : Accounts rawText := by
  intro reader
  unfold rawText
  split
  · next units rest hsplit =>
    obtain ⟨taken, hrest, hlength⟩ := taken_of_splitUnits hsplit
    rw [List.length_nil, Nat.mul_zero, Nat.zero_add] at hlength
    exact ⟨⟨taken, hrest, by rw [hlength]⟩, id⟩
  · -- all whole units were read, and the next one finds a byte at most
    let whole := 2 * (reader.rest.length / 2)
    let stopped : RecordReader :=
      { reader with rest := reader.rest.drop whole, offset := reader.offset + whole }
    have hwhole : (reader.rest.take whole).length = whole := by
      rw [List.length_take]
      omega
    have hshort : stopped.rest.length ≤ 1 := by
      rw [List.length_drop]
      omega
    refine .inr ⟨stopped, ⟨⟨_, (List.take_append_drop whole _).symm, ?_⟩, id⟩,
      .word (run_rawWord_of_short hshort)⟩
    rw [hwhole]

theorem accounts_readPayload (type : EntryType) : Accounts (readPayload type) := by
  cases type with
  | empty => exact .pure _
  | boolean => exact accounts_rawByte.bind fun _ => .pure _
  | uint16 => exact accounts_rawWord.bind fun _ => .pure _
  | string => exact accounts_rawText.bind fun _ => .pure _
  | byte => exact accounts_rawByte.bind fun _ => .pure _

/-- Before the last entry of a record there is one more to be counted as read. -/
theorem follows_countEntry {reader : RecordReader} (h : ¬reader.recordComplete = true) :
    reader.Follows { reader with entriesRead := reader.entriesRead + 1 } := by
  refine .of_rest rfl rfl fun _ => ?_
  show reader.entriesRead + 1 ≤ reader.entryCount
  have hlt : reader.entriesRead.toNat < reader.entryCount.toNat := by
    rwa [recordComplete, decide_eq_true_eq, UInt16.le_iff_toNat_le, Nat.not_le] at h
  have hmax := reader.entryCount.toNat_lt
  rw [UInt16.le_iff_toNat_le, UInt16.toNat_add, UInt16.toNat_one, Nat.mod_eq_of_lt (by omega)]
  exact hlt

/-- Behind the last entry of a record a read leaves the reader alone. -/
theorem run_readEntry_of_complete {reader : RecordReader} (h : reader.recordComplete = true) :
    readEntry reader = .ok .empty reader := by
  unfold readEntry
  rw [run_get_bind, if_pos h]
  rfl

theorem accounts_readEntry : Accounts readEntry := by
  intro reader
  by_cases hcomplete : reader.recordComplete = true
  · rw [run_readEntry_of_complete hcomplete]
    exact .refl reader
  · unfold readEntry
    rw [run_get_bind, if_neg hcomplete, run_set_bind]
    refine (follows_countEntry hcomplete).leadsTo ((accounts_rawByte.bind fun tag => ?_) _)
    cases EntryType.ofTag? tag with
    | none => exact .throw rfl
    | some type => exact accounts_readPayload type

theorem accounts_skipEntries (n : Nat) : Accounts (skipEntries n) := by
  induction n with
  | zero => exact .pure _
  | succ n ih => exact accounts_readEntry.bind fun _ => ih

theorem accounts_nextRecord : Accounts nextRecord := by
  have hstart : Accounts (rawWord >>= fun entryCount => do
      modify fun reader => { reader with entryCount, entriesRead := 0 }
      Pure.pure true) :=
    accounts_rawWord.bind fun entryCount => Accounts.bind
      (.modify fun _ => .of_rest rfl rfl fun _ => UInt16.zero_le) fun _ => .pure _
  refine Accounts.get.bind fun _ => (accounts_skipEntries _).bind fun _ => Accounts.get.bind
    fun reader => ?_
  split
  · exact .pure _
  · refine Accounts.get.bind fun _ => accounts_rawByte.bind fun tag => ?_
    split
    · exact (Accounts.throw rfl).bind fun _ => hstart
    · exact hstart

end Accounts

/-! ## Callers -/

/-- A way to read an entry: whatever it is, or as a value of a type. -/
inductive Access where
  | entry
  | number
  | text
  | bool
  | byte
  deriving DecidableEq

namespace Access

/-- The type that is asked for. -/
def type? : Access → Option EntryType
  | entry => none
  | number => some .uint16
  | text => some .string
  | bool => some .boolean
  | byte => some .byte

/-- Reads an entry. A value is the entry that holds it. -/
def read : Access → ReadM Entry
  | entry => readEntry
  | number => do return .uint16 (← readNumber)
  | text => do return .string (← readText)
  | bool => do return .boolean (← readBool)
  | byte => do return .byte (← readByte)

/-- What is read where an entry stands: the entry, unless another type is asked for. -/
def answer (access : Access) (entry : Entry) (offset : Nat) : Except LoadError Entry :=
  match access.type? with
  | none => .ok entry
  | some expected =>
    if entry.type = expected then .ok entry
    else .error (.typeMismatch expected entry.type offset)

end Access

/-- What a step yields or fails with, and the reader behind it. -/
def outcome {α : Type} (step : ReadM α) (reader : RecordReader) :
    Except LoadError α × RecordReader :=
  match step reader with
  | .ok value next => (.ok value, next)
  | .error fault next => (.error fault, next)

/-- Reads one entry after the other, whatever the answers are: the answers, and the offset behind
    each. -/
def readEach : List Access → RecordReader → List (Except LoadError Entry × Nat) × RecordReader
  | [], reader => ([], reader)
  | access :: plan, reader =>
    let (answer, next) := outcome access.read reader
    let (answers, last) := readEach plan next
    ((answer, next.offset) :: answers, last)

/-- What a caller sees of a record: whether there is one, and what is read there. -/
structure Visit where
  more : Except LoadError Bool
  reads : List (Except LoadError Entry × Nat)
  deriving DecidableEq

/-- Goes from record to record, and reads in each of them as its plan says. -/
def browse : List (List Access) → RecordReader → List Visit × RecordReader
  | [], reader => ([], reader)
  | plan :: plans, reader =>
    let (more, opened) := outcome nextRecord reader
    let (reads, next) := readEach plan opened
    let (visits, last) := browse plans next
    (⟨more, reads⟩ :: visits, last)

/-! ## Reads inside a record -/

/-- The offset of an entry of a record whose entries begin at an offset; behind the last one, the
    offset where the record ends. -/
def entryOffset (entries : List Entry) (start i : Nat) : Nat :=
  start + ((entries.take i).flatMap Entry.bytes).length

/-- The reader stands in a record whose entries begin at an offset, behind a number of them, with
    other bytes behind the record. -/
structure Stands (reader : RecordReader) (entries : List Entry) (start i : Nat)
    (rest : List UInt8) : Prop where
  holds : reader.Holds (entries.drop i) rest
  offset : reader.offset = entryOffset entries start i

variable {reader next : RecordReader} {entries : List Entry} {start i j : Nat}
  {rest : List UInt8}

theorem length_take_add_drop (entries : List Entry) (i : Nat) :
    ((entries.take i).flatMap Entry.bytes).length + ((entries.drop i).flatMap Entry.bytes).length =
      (entries.flatMap Entry.bytes).length := by
  rw [← List.length_append, ← List.flatMap_append, List.take_append_drop]

/-- All bytes from where the entries of the record begin are left or were read. -/
theorem Stands.size_eq (h : reader.Stands entries start i rest) :
    reader.size = start + (entries.flatMap Entry.bytes).length + rest.length := by
  have hsplit := length_take_add_drop entries i
  rw [size, h.offset, entryOffset, h.holds.bytes, List.length_append]
  omega

/-- A reader that is in the same record, and has lost no bytes, is where it should be. -/
theorem Stands.of_holds (h : reader.Stands entries start i rest)
    (hholds : next.Holds (entries.drop j) rest) (hsize : next.size = reader.size) :
    next.Stands entries start j rest := by
  refine ⟨hholds, ?_⟩
  have hsplit := length_take_add_drop entries j
  rw [h.size_eq, size, hholds.bytes, List.length_append] at hsize
  rw [entryOffset]
  omega

/-- A read takes the entry whose turn it is, or yields an empty one behind the last. -/
theorem Stands.readEntry (h : reader.Stands entries start i rest)
    (hwritable : ∀ entry ∈ entries, entry.isWritable = true) :
    ∃ next, RecordReader.readEntry reader = .ok (entries.getD i .empty) next ∧
      next.Stands entries start (i + 1) rest := by
  rcases Nat.lt_or_ge i entries.length with hlt | hge
  · have hholds := h.holds
    rw [List.drop_eq_getElem_cons hlt] at hholds
    obtain ⟨next, hnext, hbehind⟩ := hholds.readEntry (hwritable _ (List.getElem_mem hlt))
    rw [List.getD_eq_getElem _ _ hlt]
    exact ⟨next, hnext, h.of_holds hbehind (accounts_readEntry.follows hnext).size_eq⟩
  · have hnone : entries.drop i = [] := List.drop_eq_nil_of_le hge
    have hcomplete : reader.recordComplete = true := h.holds.recordComplete_iff.2 hnone
    have hread : RecordReader.readEntry reader = .ok .empty reader :=
      run_readEntry_of_complete hcomplete
    rw [List.getD_eq_default _ _ hge]
    refine ⟨reader, hread, h.of_holds ?_ rfl⟩
    rw [List.drop_eq_nil_of_le (Nat.le_succ_of_le hge), ← hnone]
    exact h.holds

theorem run_readTyped {α : Type} {entry : Entry} (expected : EntryType)
    (value? : Entry → Option α) (h : RecordReader.readEntry reader = .ok entry next) :
    readTyped expected value? reader =
      match value? entry with
      | some value => .ok value next
      | none => .error (.typeMismatch expected entry.type reader.offset) next := by
  rw [readTyped, run_get_bind, run_bind h]
  cases value? entry <;> rfl

/-- What a read answers depends on the entry that is taken, and so does nothing behind it. -/
theorem outcome_read {entry : Entry} (access : Access)
    (h : RecordReader.readEntry reader = .ok entry next) :
    outcome access.read reader = (access.answer entry reader.offset, next) := by
  have htyped : ∀ {α : Type} (expected : EntryType) (value? : Entry → Option α)
      (hold : α → Entry), (outcome (readTyped expected value? >>= fun value =>
        pure (hold value)) reader) =
        match value? entry with
        | some value => (.ok (hold value), next)
        | none => (.error (.typeMismatch expected entry.type reader.offset), next) := by
    intro α expected value? hold
    have hrun := run_readTyped expected value? h
    cases hvalue : value? entry with
    | some value =>
      rw [hvalue] at hrun
      rw [outcome, run_bind hrun]
      rfl
    | none =>
      rw [hvalue] at hrun
      rw [outcome, run_bind_error hrun]
  cases access with
  | entry => rw [outcome, Access.read, h]; rfl
  | number => exact (htyped _ _ _).trans (by cases entry <;> rfl)
  | text => exact (htyped _ _ _).trans (by cases entry <;> rfl)
  | bool => exact (htyped _ _ _).trans (by cases entry <;> rfl)
  | byte => exact (htyped _ _ _).trans (by cases entry <;> rfl)

/-- What a read sees inside a record, and where it leaves the reader. -/
theorem Stands.outcome_read (h : reader.Stands entries start i rest)
    (hwritable : ∀ entry ∈ entries, entry.isWritable = true) (access : Access) :
    ∃ next, outcome access.read reader =
        (access.answer (entries.getD i .empty) (entryOffset entries start i), next) ∧
      next.Stands entries start (i + 1) rest := by
  obtain ⟨next, hnext, hstands⟩ := h.readEntry hwritable
  exact ⟨next, by rw [RecordReader.outcome_read access hnext, h.offset], hstands⟩

/-- What the reads of a plan see of a record whose entries begin at an offset. Each sees the entry
    whose turn it is, or an empty one, and leaves the reader behind that entry. -/
def seen (entries : List Entry) (start : Nat) (plan : List Access) :
    List (Except LoadError Entry × Nat) :=
  plan.mapIdx fun i access =>
    (access.answer (entries.getD i .empty) (entryOffset entries start i),
      entryOffset entries start (i + 1))

/-- A read behind the last entry sees an empty one, and does not move the offset. -/
theorem seen_behind {plan : List Access} {access : Access} (hlast : entries.length ≤ i)
    (haccess : plan[i]? = some access) :
    (seen entries start plan)[i]? =
      some (access.answer .empty (entryOffset entries start entries.length),
        entryOffset entries start entries.length) := by
  have hend : ∀ j, entries.length ≤ j →
      entryOffset entries start j = entryOffset entries start entries.length := by
    intro j hj
    rw [entryOffset, entryOffset, List.take_of_length_le hj, List.take_length]
  rw [seen, List.getElem?_mapIdx, haccess, Option.map_some, List.getD_eq_default _ _ hlast,
    hend i hlast, hend (i + 1) (Nat.le_succ_of_le hlast)]

theorem Stands.readEach (h : reader.Stands entries start i rest)
    (hwritable : ∀ entry ∈ entries, entry.isWritable = true) (plan : List Access) :
    ∃ next, RecordReader.readEach plan reader =
        (plan.mapIdx fun k access =>
          (access.answer (entries.getD (i + k) .empty) (entryOffset entries start (i + k)),
            entryOffset entries start (i + k + 1)), next) ∧
      next.Stands entries start (i + plan.length) rest := by
  induction plan generalizing reader i with
  | nil => exact ⟨reader, rfl, h⟩
  | cons access plan ih =>
    obtain ⟨middle, hread, hmiddle⟩ := h.outcome_read hwritable access
    obtain ⟨last, hreads, hlast⟩ := ih hmiddle
    refine ⟨last, ?_, ?_⟩
    · rw [RecordReader.readEach, hread]
      simp only
      rw [hreads, hmiddle.offset, List.mapIdx_cons]
      simp only [Nat.add_zero, Nat.add_assoc, Nat.add_comm 1]
    · rw [List.length_cons, Nat.add_comm plan.length, ← Nat.add_assoc]
      exact hlast

/-! ## Records -/

/-- What the plans of a caller see of records that begin at an offset. -/
def visits : Nat → List (List Entry) → List (List Access) → List Visit
  | offset, entries :: written, plan :: plans =>
    ⟨.ok true, seen entries (offset + 3) plan⟩ ::
      visits (offset + (recordBytes entries).length) written plans
  | _, _, _ => []

/-- The next record begins where the one before it ends, however much of that was read. -/
theorem Stands.nextRecord {more : List Entry} (h : reader.Stands entries start i
      (recordBytes more ++ rest))
    (hwritable : ∀ entry ∈ entries, entry.isWritable = true) (hlength : more.length < 65536) :
    ∃ next, RecordReader.nextRecord reader = .ok true next ∧
      next.Stands more (start + (entries.flatMap Entry.bytes).length + 3) 0 rest := by
  obtain ⟨next, hnext, hholds⟩ := nextRecord_recordBytes h.holds
    (fun entry hentry => hwritable entry (List.mem_of_mem_drop hentry)) hlength
  refine ⟨next, hnext, hholds, ?_⟩
  have hsize := (accounts_nextRecord.follows hnext).size_eq
  have hrecord : (recordBytes more).length = 3 + (more.flatMap Entry.bytes).length := by
    simp only [recordBytes, wordBytes, List.length_append, List.length_cons, List.length_nil]
  rw [h.size_eq, size, hholds.bytes, List.length_append, List.length_append, hrecord] at hsize
  show next.offset = _ + 0
  omega

theorem Stands.browse {written : List (List Entry)} (plans : List (List Access))
    (hplans : plans.length = written.length) (hencodable : ∀ more ∈ written, Encodable more)
    (hwritable : ∀ entry ∈ entries, entry.isWritable = true)
    (h : reader.Stands entries start i (written.flatMap recordBytes)) :
    ∃ last behind,
      RecordReader.browse plans reader =
          (visits (start + (entries.flatMap Entry.bytes).length) written plans, last) ∧
        RecordReader.nextRecord last = .ok false behind := by
  induction written generalizing plans reader entries start i with
  | nil =>
    obtain ⟨behind, hend⟩ := nextRecord_nil h.holds
      fun entry hentry => hwritable entry (List.mem_of_mem_drop hentry)
    rw [List.length_eq_zero_iff.1 hplans]
    exact ⟨reader, behind, rfl, hend⟩
  | cons more written ih =>
    obtain ⟨plan, plans, rfl⟩ := List.exists_cons_of_length_eq_add_one hplans
    obtain ⟨hmore, hencodable⟩ := List.forall_mem_cons.1 hencodable
    rw [List.flatMap_cons] at h
    obtain ⟨opened, hopened, hstart⟩ := h.nextRecord hwritable hmore.length_lt
    obtain ⟨next, hreads, hnext⟩ := hstart.readEach hmore.isWritable plan
    obtain ⟨last, behind, hbrowse, hend⟩ := ih plans (Nat.succ.inj hplans) hencodable
      hmore.isWritable hnext
    refine ⟨last, behind, ?_, hend⟩
    have hopens : outcome RecordReader.nextRecord reader = (.ok true, opened) := by
      rw [outcome, hopened]
    have hrecord : start + (entries.flatMap Entry.bytes).length + (recordBytes more).length =
        start + (entries.flatMap Entry.bytes).length + 3 + (more.flatMap Entry.bytes).length := by
      simp only [recordBytes, wordBytes, List.length_append, List.length_cons, List.length_nil]
      omega
    rw [RecordReader.browse, hopens]
    simp only
    rw [hreads]
    simp only
    rw [hbrowse, visits, hrecord]
    simp only [seen, Nat.zero_add]

end RecordReader

open RecordReader

/-- A header and records can be written if and only if no text holds a NUL and no record has more
    than 65535 entries. From the bytes the header is read back, and whatever a caller reads in each
    of the records, each of them is found, each read sees the entry whose turn it is, and behind the
    last record there is no other. -/
theorem fileBytes_browse (header : String) (written : List (List Entry)) :
    ((∃ bytes, fileBytes header written = .ok bytes) ↔
        hasNul header = false ∧ ∀ entries ∈ written, entries.length ≤ 65535 ∧
          ∀ text, .string text ∈ entries → hasNul text = false) ∧
      ∀ bytes, fileBytes header written = .ok bytes →
        ∃ reader, open? bytes = .ok reader ∧ reader.header = header ∧
          ∀ plans : List (List Access), plans.length = written.length → ∃ last behind,
            browse plans reader = (visits (textBytes header).length written plans, last) ∧
              nextRecord last = .ok false behind := by
  have hencodable : ∀ entries : List Entry, Encodable entries ↔ entries.length ≤ 65535 ∧
      ∀ text, .string text ∈ entries → hasNul text = false := by
    intro entries
    constructor
    · exact fun h => ⟨Nat.le_of_lt_succ h.length_lt, fun text hmem => h.hasNul hmem⟩
    · rintro ⟨hlength, htexts⟩
      refine ⟨Nat.lt_succ_of_le hlength, fun entry hmem => ?_⟩
      cases entry with
      | string text => simp [Entry.isWritable, htexts text hmem]
      | _ => rfl
  simp only [fileBytes_eq_ok_iff, ← hencodable]
  refine ⟨⟨?_, ?_⟩, ?_⟩
  · rintro ⟨bytes, hheader, hwritten, -⟩
    exact ⟨hheader, hwritten⟩
  · rintro ⟨hheader, hwritten⟩
    exact ⟨_, hheader, hwritten, rfl⟩
  · rintro bytes ⟨hheader, hwritten, rfl⟩
    refine ⟨start header _, open?_textBytes hheader _, rfl, fun plans hplans => ?_⟩
    have hstands : (start header (written.flatMap recordBytes)).Stands [] (textBytes header).length
        0 (written.flatMap recordBytes) := ⟨holds_start header _, rfl⟩
    obtain ⟨last, behind, hbrowse, hend⟩ := hstands.browse plans hplans hwritten (by simp)
    rw [List.flatMap_nil, List.length_nil, Nat.add_zero] at hbrowse
    exact ⟨last, behind, hbrowse, hend⟩

/-- A record with a read of the wrong type and one read too many, and a record that is skipped. -/
theorem fileBytes_browse_twoRecords : ∃ bytes reader last behind,
    fileBytes "h" [[.uint16 5, .boolean true], [.byte 1]] = .ok bytes ∧
      open? bytes = .ok reader ∧ reader.header = "h" ∧
      browse [[.text, .bool, .number], []] reader =
        ([⟨.ok true, [(.error (.typeMismatch .string .uint16 7), 10), (.ok (.boolean true), 12),
            (.error (.typeMismatch .uint16 .empty 12), 12)]⟩, ⟨.ok true, []⟩], last) ∧
      nextRecord last = .ok false behind := by
  obtain ⟨hwrites, hreads⟩ := fileBytes_browse "h" [[.uint16 5, .boolean true], [.byte 1]]
  obtain ⟨bytes, hbytes⟩ := hwrites.2 (by simp [hasNul])
  obtain ⟨reader, hopen, hheader, hbrowse⟩ := hreads bytes hbytes
  obtain ⟨last, behind, hlast, hend⟩ := hbrowse [[.text, .bool, .number], []] rfl
  exact ⟨bytes, reader, last, behind, hbytes, hopen, hheader, hlast.trans rfl, hend⟩

end GoldTables

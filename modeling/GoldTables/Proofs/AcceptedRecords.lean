import GoldTables.Grammar.Load
import GoldTables.Proofs.EntryReading

/-!
# What is read fits a record

A reader is lenient: records may come in any order and more than once, carry
entries that nothing looks at, declare a wrong number of ranges, or lack the
last reserved entry. Nevertheless each row that is read can be written again,
as every item of a row took nearly as many entries as it is written with, and
a text ends at its first zero.

Results:
* `TableRecord.readNext_ok`: every record that is read is one that fits.
* `fits_of_mem_tableRecords`: so is every record of a file.
-/

namespace GoldTables

/-! ## Rows that fit a record -/

/-- Whether the actions can be found by their symbols as `LrState.ofActions` leaves them. -/
def LrState.Indexed (state : LrState) : Prop := state = .ofActions state.actions.toList

/-- The row's record has no more entries than can be counted, and no text with a NUL. -/
def Symbol.Fits (symbol : Symbol) : Prop := hasNul symbol.name = false

@[inherit_doc Symbol.Fits]
def CharacterSet.Fits (set : CharacterSet) : Prop := 5 + 2 * set.ranges.length < 65536

@[inherit_doc Symbol.Fits]
def Production.Fits (production : Production) : Prop := 4 + production.body.length < 65536

@[inherit_doc Symbol.Fits]
def DfaState.Fits (state : DfaState) : Prop := 5 + 3 * state.edges.length < 65536

/-- The row's record has no more entries than can be counted, and its index is in order. -/
def LrState.Fits (state : LrState) : Prop :=
  state.Indexed ∧ 3 + 4 * state.actions.toList.length < 65536

@[inherit_doc Symbol.Fits]
def Group.Fits (group : Group) : Prop :=
  hasNul group.name = false ∧ 10 + group.nesting.length < 65536

/-- No property holds a NUL. -/
def Properties.Fits (properties : Properties) : Prop :=
  ∀ value ∈ properties.values.toList, hasNul value = false

/-- What a record describes fits a record. -/
def TableRecord.Fits : TableRecord → Prop
  | .property _ value => hasNul value = false
  | .tableCounts _ | .initialStates _ _ => True
  | .symbol _ row => row.Fits
  | .characterSet _ _ row => row.Fits
  | .production _ row => row.Fits
  | .dfaState _ row => row.Fits
  | .lrState _ row => row.Fits
  | .group _ row => row.Fits

/-! ## Actions that were pushed -/

theorem LrState.actions_foldl (rows : List LrAction) (state : LrState) :
    (rows.foldl (fun state row => state.push row.symbol row.action) state).actions.toList =
      state.actions.toList ++ rows := by
  induction rows generalizing state with
  | nil => simp
  | cons row rows ih => rw [List.foldl_cons, ih]; simp [LrState.push]

@[simp] theorem LrState.actions_ofActions (rows : List LrAction) :
    (LrState.ofActions rows).actions.toList = rows := by
  rw [LrState.ofActions, LrState.actions_foldl]
  simp [LrState.empty]

theorem LrState.indexed_ofActions (rows : List LrAction) : (LrState.ofActions rows).Indexed := by
  rw [LrState.Indexed, LrState.actions_ofActions]

/-- Pushing enters the places of the actions one by one, from the number of actions on. -/
theorem LrState.places_foldl (rows : List LrAction) (state : LrState) :
    (rows.foldl (fun state row => state.push row.symbol row.action) state).places =
      (rows.zipIdx state.actions.size).foldl
        (fun places row => places.insertIfNew row.1.symbol row.2) state.places := by
  induction rows generalizing state with
  | nil => rfl
  | cons row rows ih =>
    rw [List.foldl_cons, ih, List.zipIdx_cons, List.foldl_cons]
    simp [LrState.push]

/-- An index that is made anew is the one that pushing the actions leaves. -/
theorem LrState.reindex_eq_ofActions (state : LrState) :
    state.reindex = .ofActions state.actions.toList := by
  have hplaces : state.reindex.places = (LrState.ofActions state.actions.toList).places :=
    (places_foldl state.actions.toList .empty).symm
  have hactions : state.reindex.actions = (LrState.ofActions state.actions.toList).actions :=
    Array.toList_inj.1 (actions_ofActions _).symm
  show LrState.mk state.reindex.actions state.reindex.places = _
  rw [hplaces, hactions]

theorem LrState.indexed_reindex (state : LrState) : state.reindex.Indexed :=
  state.reindex_eq_ofActions

/-- An index that is in order is not changed. -/
theorem LrState.Indexed.reindex_eq {state : LrState} (h : state.Indexed) : state.reindex = state :=
  state.reindex_eq_ofActions.trans h.symm

/-! ## Entries taken by a step -/

namespace RecordReader

variable {α β : Type} {reader next : RecordReader}

/-- The number of entries of the current record that were not read. -/
def left (reader : RecordReader) : Nat := reader.entryCount.toNat - reader.entriesRead.toNat

theorem left_lt (reader : RecordReader) : reader.left < 65536 := by
  have := reader.entryCount.toNat_lt
  rw [left]
  omega

theorem recordComplete_iff_left : reader.recordComplete = true ↔ reader.left = 0 := by
  rw [recordComplete, decide_eq_true_iff, UInt16.le_iff_toNat_le, left]
  omega

theorem bind_ok {step : ReadM α} {rest : α → ReadM β} {result : β}
    (h : (step >>= rest) reader = .ok result next) :
    ∃ value middle, step reader = .ok value middle ∧ rest value middle = .ok result next := by
  change EStateM.bind step rest reader = _ at h
  rw [EStateM.bind] at h
  split at h
  · next value middle hstep => exact ⟨value, middle, hstep, h⟩
  · cases h

theorem get_bind_ok {rest : RecordReader → ReadM β} {result : β}
    (h : (get >>= rest) reader = .ok result next) : rest reader reader = .ok result next := h

theorem pure_ok {value result : α} (h : (pure value : ReadM α) reader = .ok result next) :
    value = result ∧ reader = next := by
  cases h
  exact ⟨rfl, rfl⟩

theorem rawByte_ok {byte : UInt8} (h : rawByte reader = .ok byte next) :
    next.left = reader.left := by
  rw [rawByte] at h
  split at h
  · cases h; rfl
  · cases h

theorem rawWord_ok {n : UInt16} (h : rawWord reader = .ok n next) : next.left = reader.left := by
  rw [rawWord] at h
  split at h
  · cases h; rfl
  · cases h

theorem rawText_ok {s : String} (h : rawText reader = .ok s next) :
    next.left = reader.left ∧ hasNul s = false := by
  rw [rawText] at h
  split at h
  · next units rest hsplit =>
    cases h
    exact ⟨rfl, Text.hasNul_ofUtf16 (zero_notMem_of_splitUnits hsplit (by simp))⟩
  · cases h

/-- An entry other than a text, or a text without NUL, can be written. -/
theorem readPayload_ok {type : EntryType} {entry : Entry}
    (h : readPayload type reader = .ok entry next) :
    next.left = reader.left ∧ entry.isWritable = true := by
  cases type with
  | empty =>
    obtain ⟨rfl, rfl⟩ := pure_ok h
    exact ⟨rfl, rfl⟩
  | boolean =>
    obtain ⟨_, _, hbyte, h⟩ := bind_ok h
    obtain ⟨rfl, rfl⟩ := pure_ok h
    exact ⟨rawByte_ok hbyte, rfl⟩
  | uint16 =>
    obtain ⟨_, _, hword, h⟩ := bind_ok h
    obtain ⟨rfl, rfl⟩ := pure_ok h
    exact ⟨rawWord_ok hword, rfl⟩
  | string =>
    obtain ⟨_, _, htext, h⟩ := bind_ok h
    obtain ⟨rfl, rfl⟩ := pure_ok h
    obtain ⟨hleft, hnul⟩ := rawText_ok htext
    exact ⟨hleft, by rw [Entry.isWritable, hnul]; rfl⟩
  | byte =>
    obtain ⟨_, _, hbyte, h⟩ := bind_ok h
    obtain ⟨rfl, rfl⟩ := pure_ok h
    exact ⟨rawByte_ok hbyte, rfl⟩

/-- A read takes one entry if there is one; behind the last one it yields an empty entry. -/
theorem readEntry_ok {entry : Entry} (h : readEntry reader = .ok entry next) :
    next.left = reader.left - 1 ∧ entry.isWritable = true ∧ (reader.left = 0 → entry = .empty) := by
  replace h := get_bind_ok h
  split at h
  · next hcomplete =>
    obtain ⟨rfl, rfl⟩ := pure_ok h
    rw [recordComplete_iff_left] at hcomplete
    exact ⟨by omega, rfl, fun _ => rfl⟩
  · next hopen =>
    rw [recordComplete_iff_left] at hopen
    obtain ⟨⟨⟩, moved, hset, h⟩ := bind_ok h
    have hmoved : moved.left = reader.left - 1 := by
      cases hset
      have := reader.entryCount.toNat_lt
      rw [left] at hopen
      show reader.entryCount.toNat - (reader.entriesRead + 1).toNat = reader.left - 1
      rw [UInt16.toNat_add, show (1 : UInt16).toNat = 1 from rfl, left]
      omega
    obtain ⟨tag, behind, hbyte, h⟩ := bind_ok h
    cases htype : EntryType.ofTag? tag with
    | none =>
      rw [htype] at h
      cases h
    | some type =>
      rw [htype] at h
      obtain ⟨hleft, hwritable⟩ := readPayload_ok h
      rw [rawByte_ok hbyte] at hleft
      exact ⟨by omega, hwritable, fun hzero => absurd hzero hopen⟩

/-- A read that expects a type which is not the empty one takes exactly one entry. -/
theorem readTyped_ok {expected : EntryType} {value? : Entry → Option α} {value : α}
    (hempty : value? .empty = none) (h : readTyped expected value? reader = .ok value next) :
    reader.left = next.left + 1 ∧ ∃ entry, entry.isWritable = true ∧ value? entry = some value := by
  replace h := get_bind_ok h
  obtain ⟨entry, behind, hentry, h⟩ := bind_ok h
  obtain ⟨hleft, hwritable, hzero⟩ := readEntry_ok hentry
  cases hfound : value? entry with
  | none =>
    rw [hfound] at h
    cases h
  | some found =>
    rw [hfound] at h
    obtain ⟨rfl, rfl⟩ := pure_ok h
    refine ⟨?_, entry, hwritable, hfound⟩
    by_cases hnone : reader.left = 0
    · rw [hzero hnone, hempty] at hfound
      cases hfound
    · omega

theorem readNumber_ok {n : UInt16} (h : readNumber reader = .ok n next) :
    reader.left = next.left + 1 :=
  (readTyped_ok rfl h).1

theorem readBool_ok {b : Bool} (h : readBool reader = .ok b next) :
    reader.left = next.left + 1 :=
  (readTyped_ok rfl h).1

theorem readByte_ok {b : UInt8} (h : readByte reader = .ok b next) :
    reader.left = next.left + 1 :=
  (readTyped_ok rfl h).1

theorem readText_ok {s : String} (h : readText reader = .ok s next) :
    reader.left = next.left + 1 ∧ hasNul s = false := by
  obtain ⟨hleft, entry, hwritable, hvalue⟩ := readTyped_ok rfl h
  refine ⟨hleft, ?_⟩
  split at hvalue
  · cases hvalue
    simpa [Entry.isWritable] using hwritable
  · cases hvalue

end RecordReader

/-! ## Items -/

namespace TableRecord

open RecordReader

variable {α : Type} {reader next : RecordReader}

theorem readCode_ok {field : CodeField} {ofCode? : UInt16 → Option α} {value : α}
    (h : readCode field ofCode? reader = .ok value next) : reader.left = next.left + 1 := by
  obtain ⟨code, behind, hcode, h⟩ := bind_ok h
  cases hmeaning : ofCode? code with
  | none =>
    rw [hmeaning] at h
    cases h
  | some meaning =>
    rw [hmeaning] at h
    obtain ⟨rfl, rfl⟩ := pure_ok h
    exact readNumber_ok hcode

theorem readRange_ok {range : CharacterRange} (h : readRange reader = .ok range next) :
    reader.left = next.left + 2 := by
  obtain ⟨_, _, hstart, h⟩ := bind_ok h
  obtain ⟨_, _, hlast, h⟩ := bind_ok h
  obtain ⟨rfl, rfl⟩ := pure_ok h
  rw [readNumber_ok hstart, readNumber_ok hlast]

/-- The reserved entry of the last edge may be missing. -/
theorem readEdge_ok {edge : DfaEdge} (h : readEdge reader = .ok edge next) :
    next.left = reader.left - 3 ∧ 2 ≤ reader.left := by
  obtain ⟨_, _, hset, h⟩ := bind_ok h
  obtain ⟨_, _, htarget, h⟩ := bind_ok h
  obtain ⟨_, _, hreserved, h⟩ := bind_ok h
  obtain ⟨rfl, rfl⟩ := pure_ok h
  have h1 := readNumber_ok hset
  have h2 := readNumber_ok htarget
  have h3 := (readEntry_ok hreserved).1
  omega

/-- The reserved entry of the last action may be missing. -/
theorem readAction_ok {row : LrAction} (h : readAction reader = .ok row next) :
    next.left = reader.left - 4 ∧ 3 ≤ reader.left := by
  obtain ⟨_, _, hsymbol, h⟩ := bind_ok h
  obtain ⟨kind, _, hkind, h⟩ := bind_ok h
  obtain ⟨target, _, htarget, h⟩ := bind_ok h
  obtain ⟨_, behind, hreserved, h⟩ := bind_ok h
  have h1 := readNumber_ok hsymbol
  have h2 := readNumber_ok hkind
  have h3 := readNumber_ok htarget
  have h4 := (readEntry_ok hreserved).1
  cases haction : Action.ofTable? kind target with
  | none =>
    rw [haction] at h
    cases h
  | some action =>
    rw [haction] at h
    obtain ⟨rfl, rfl⟩ := pure_ok h
    omega

theorem readTimes_ok {item : ReadM α} {n : Nat} {done values : List α}
    (hitem : ∀ reader value next, item reader = .ok value next → reader.left = next.left + 1)
    (h : readTimes item n done reader = .ok values next) :
    values.length = done.length + n ∧ reader.left = next.left + n := by
  induction n generalizing done reader with
  | zero =>
    obtain ⟨rfl, rfl⟩ := pure_ok h
    simp
  | succ n ih =>
    obtain ⟨value, behind, hvalue, h⟩ := bind_ok h
    obtain ⟨hlength, hleft⟩ := ih h
    have := hitem _ _ _ hvalue
    rw [List.length_cons] at hlength
    omega

/-- Items that take `size` entries each, of which the last may lack `slack`, are at most as many
    as the entries that were left suffice for. -/
theorem readUntilComplete_ok {item : ReadM α} {size slack n : Nat} {done values : List α}
    (hslack : slack ≤ 1)
    (hitem : ∀ reader value next, item reader = .ok value next →
      next.left = reader.left - size ∧ size ≤ reader.left + slack)
    (h : readUntilComplete item n done reader = .ok values next) :
    size * values.length ≤
      size * done.length + reader.left + min reader.left slack := by
  induction n generalizing done reader with
  | zero =>
    obtain ⟨rfl, rfl⟩ := pure_ok h
    rw [List.length_reverse]
    omega
  | succ n ih =>
    replace h := get_bind_ok h
    split at h
    · obtain ⟨rfl, rfl⟩ := pure_ok h
      rw [List.length_reverse]
      omega
    · next hopen =>
      rw [recordComplete_iff_left] at hopen
      obtain ⟨value, behind, hvalue, h⟩ := bind_ok h
      obtain ⟨hleft, hsize⟩ := hitem _ _ _ hvalue
      have hrest := ih h
      rw [List.length_cons, Nat.mul_add, Nat.mul_one] at hrest
      -- either the item took the last entries, or it took all that it can
      by_cases hlast : behind.left = 0
      · rw [hlast] at hrest
        omega
      · omega

theorem readItems_ok {item : ReadM α} {size slack : Nat} {values : List α} (hslack : slack ≤ 1)
    (hitem : ∀ reader value next, item reader = .ok value next →
      next.left = reader.left - size ∧ size ≤ reader.left + slack)
    (h : readItems item reader = .ok values next) :
    size * values.length ≤ reader.left + min reader.left slack := by
  have := readUntilComplete_ok hslack hitem (get_bind_ok h)
  simpa using this

/-! ## Records -/

theorem readProperty_ok {record : TableRecord} (h : readProperty reader = .ok record next) :
    record.Fits := by
  obtain ⟨_, _, _, h⟩ := bind_ok h
  obtain ⟨_, _, _, h⟩ := bind_ok h
  obtain ⟨value, _, hvalue, h⟩ := bind_ok h
  obtain ⟨rfl, rfl⟩ := pure_ok h
  exact (readText_ok hvalue).2

theorem readTableCounts_ok {record : TableRecord} (h : readTableCounts reader = .ok record next) :
    record.Fits := by
  obtain ⟨_, _, _, h⟩ := bind_ok h
  obtain ⟨_, _, _, h⟩ := bind_ok h
  obtain ⟨_, _, _, h⟩ := bind_ok h
  obtain ⟨_, _, _, h⟩ := bind_ok h
  obtain ⟨_, _, _, h⟩ := bind_ok h
  obtain ⟨_, _, _, h⟩ := bind_ok h
  obtain ⟨rfl, rfl⟩ := pure_ok h
  trivial

theorem readInitialStates_ok {record : TableRecord}
    (h : readInitialStates reader = .ok record next) : record.Fits := by
  obtain ⟨_, _, _, h⟩ := bind_ok h
  obtain ⟨_, _, _, h⟩ := bind_ok h
  obtain ⟨rfl, rfl⟩ := pure_ok h
  trivial

theorem readSymbol_ok {record : TableRecord} (h : readSymbol reader = .ok record next) :
    record.Fits := by
  obtain ⟨_, _, _, h⟩ := bind_ok h
  obtain ⟨_, _, hname, h⟩ := bind_ok h
  obtain ⟨_, _, _, h⟩ := bind_ok h
  obtain ⟨rfl, rfl⟩ := pure_ok h
  exact (readText_ok hname).2

theorem readGroup_ok {record : TableRecord} (hleft : reader.left < 65535)
    (h : readGroup reader = .ok record next) : record.Fits := by
  obtain ⟨_, _, hindex, h⟩ := bind_ok h
  obtain ⟨_, _, hname, h⟩ := bind_ok h
  obtain ⟨_, _, hcontainer, h⟩ := bind_ok h
  obtain ⟨_, _, hstart, h⟩ := bind_ok h
  obtain ⟨_, _, hfinish, h⟩ := bind_ok h
  obtain ⟨_, _, hadvance, h⟩ := bind_ok h
  obtain ⟨_, _, hending, h⟩ := bind_ok h
  obtain ⟨_, _, hreserved, h⟩ := bind_ok h
  obtain ⟨_, _, hcount, h⟩ := bind_ok h
  obtain ⟨nesting, _, hnesting, h⟩ := bind_ok h
  obtain ⟨rfl, rfl⟩ := pure_ok h
  obtain ⟨hname, hnul⟩ := readText_ok hname
  obtain ⟨hlength, hnesting⟩ := readTimes_ok (fun _ _ _ => readNumber_ok) hnesting
  have h1 := readNumber_ok hindex
  have h3 := readNumber_ok hcontainer
  have h4 := readNumber_ok hstart
  have h5 := readNumber_ok hfinish
  have h6 := readCode_ok hadvance
  have h7 := readCode_ok hending
  have h8 := (readEntry_ok hreserved).1
  have h9 := readNumber_ok hcount
  rw [List.length_nil, Nat.zero_add] at hlength
  refine ⟨hnul, ?_⟩
  show 10 + nesting.length < 65536
  omega

theorem readCharacterSet_ok {record : TableRecord} (hleft : reader.left < 65535)
    (h : readCharacterSet reader = .ok record next) : record.Fits := by
  obtain ⟨_, _, hindex, h⟩ := bind_ok h
  obtain ⟨_, _, hcodepage, h⟩ := bind_ok h
  obtain ⟨_, _, hdeclared, h⟩ := bind_ok h
  obtain ⟨_, _, hreserved, h⟩ := bind_ok h
  obtain ⟨ranges, _, hranges, h⟩ := bind_ok h
  obtain ⟨rfl, rfl⟩ := pure_ok h
  have hlength : 2 * ranges.length ≤ _ + min _ 0 := readItems_ok (by omega)
    (fun _ _ _ hrange => by have := readRange_ok hrange; omega) hranges
  have h1 := readNumber_ok hindex
  have h2 := readNumber_ok hcodepage
  have h3 := readNumber_ok hdeclared
  have h4 := (readEntry_ok hreserved).1
  show 5 + 2 * ranges.length < 65536
  omega

theorem readProduction_ok {record : TableRecord} (hleft : reader.left < 65535)
    (h : readProduction reader = .ok record next) : record.Fits := by
  obtain ⟨_, _, hindex, h⟩ := bind_ok h
  obtain ⟨_, _, hhead, h⟩ := bind_ok h
  obtain ⟨_, _, hreserved, h⟩ := bind_ok h
  obtain ⟨body, _, hbody, h⟩ := bind_ok h
  obtain ⟨rfl, rfl⟩ := pure_ok h
  have hlength : 1 * body.length ≤ _ + min _ 0 := readItems_ok (by omega)
    (fun _ _ _ hsymbol => by have := readNumber_ok hsymbol; omega) hbody
  have h1 := readNumber_ok hindex
  have h2 := readNumber_ok hhead
  have h3 := (readEntry_ok hreserved).1
  show 4 + body.length < 65536
  omega

theorem readDfaState_ok {record : TableRecord} (hleft : reader.left < 65535)
    (h : readDfaState reader = .ok record next) : record.Fits := by
  obtain ⟨_, _, hindex, h⟩ := bind_ok h
  obtain ⟨_, _, haccepts, h⟩ := bind_ok h
  obtain ⟨_, _, hsymbol, h⟩ := bind_ok h
  obtain ⟨_, _, hreserved, h⟩ := bind_ok h
  obtain ⟨edges, _, hedges, h⟩ := bind_ok h
  obtain ⟨rfl, rfl⟩ := pure_ok h
  have hlength : 3 * edges.length ≤ _ + min _ 1 := readItems_ok (by omega)
    (fun _ _ _ hedge => by have := readEdge_ok hedge; omega) hedges
  have h1 := readNumber_ok hindex
  have h2 := readBool_ok haccepts
  have h3 := readNumber_ok hsymbol
  have h4 := (readEntry_ok hreserved).1
  show 5 + 3 * edges.length < 65536
  omega

theorem readLrState_ok {record : TableRecord} (hleft : reader.left < 65535)
    (h : readLrState reader = .ok record next) : record.Fits := by
  obtain ⟨_, _, hindex, h⟩ := bind_ok h
  obtain ⟨_, _, hreserved, h⟩ := bind_ok h
  obtain ⟨actions, _, hactions, h⟩ := bind_ok h
  obtain ⟨rfl, rfl⟩ := pure_ok h
  have hlength : 4 * actions.length ≤ _ + min _ 1 := readItems_ok (by omega)
    (fun _ _ _ haction => by have := readAction_ok haction; omega) hactions
  have h1 := readNumber_ok hindex
  have h2 := (readEntry_ok hreserved).1
  refine ⟨LrState.indexed_ofActions _, ?_⟩
  rw [LrState.actions_ofActions]
  omega

theorem readBody_ok {counted : Bool} {kind : RecordKind} {record : TableRecord}
    (hleft : reader.left < 65535) (h : readBody counted kind reader = .ok record next) :
    record.Fits := by
  cases kind with
  | property => exact readProperty_ok h
  | tableCounts => exact readTableCounts_ok h
  | initialStates => exact readInitialStates_ok h
  | symbol => cases counted with | false => cases h | true => exact readSymbol_ok h
  | production => cases counted with | false => cases h | true => exact readProduction_ok hleft h
  | dfaState => cases counted with | false => cases h | true => exact readDfaState_ok hleft h
  | lrState => cases counted with | false => cases h | true => exact readLrState_ok hleft h
  | characterSet =>
    cases counted with | false => cases h | true => exact readCharacterSet_ok hleft h
  | group => cases counted with | false => cases h | true => exact readGroup_ok hleft h

/-- Every record that is read fits a record. -/
theorem readNext_ok {counted : Bool} {record : TableRecord}
    (h : readNext counted reader = .ok (some record) next) : record.Fits := by
  obtain ⟨more, behind, _, h⟩ := bind_ok h
  cases more with
  | false => cases h
  | true =>
    replace h := get_bind_ok h
    obtain ⟨code, body, hcode, h⟩ := bind_ok h
    cases hkind : RecordKind.ofCode? code with
    | none =>
      rw [hkind] at h
      cases h
    | some kind =>
      rw [hkind] at h
      obtain ⟨read, _, hread, h⟩ := bind_ok h
      cases h
      have h1 := readByte_ok hcode
      have h2 := behind.left_lt
      exact readBody_ok (by omega) hread

end TableRecord

/-- All records that are read fit a record. -/
theorem fits_of_mem_collectRecords {n : Nat} {counted : Bool} {done : List TableRecord}
    {reader : RecordReader} (hdone : ∀ record ∈ done, record.Fits) :
    ∀ record ∈ (collectRecords n counted done reader).1, record.Fits := by
  induction n generalizing counted done reader with
  | zero => simpa [collectRecords] using hdone
  | succ n ih =>
    rw [collectRecords]
    split
    · simpa using hdone
    · next record behind hread =>
      refine ih ?_
      intro other hother
      rcases List.mem_cons.1 hother with rfl | hother
      · exact TableRecord.readNext_ok hread
      · exact hdone other hother
    · simpa using hdone

theorem fits_of_mem_tableRecords {reader : RecordReader} {record : TableRecord}
    (h : record ∈ (tableRecords reader).1) : record.Fits :=
  fits_of_mem_collectRecords (fun _ h => absurd h List.not_mem_nil) record h

end GoldTables

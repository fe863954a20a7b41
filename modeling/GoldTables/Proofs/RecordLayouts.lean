import GoldTables.Proofs.RegularReading

/-!
# The layouts of records

What the entries of a record say, without a reader: a record is the byte of
its kind and a fixed row of entries, with the items of a list behind them.
Entries behind the layout are not looked at, reserved entries may hold
anything, and the last reserved entry may be missing. Whatever a reader makes
of a record is what its layout says.

Results:
* `TableRecord.ofEntries?`: what a record says.
* `TableRecord.numbered_of_ofEntries?`: a row is described under the index that addresses it.
* `TableRecord.ofBody?_of_readBody`: a reader takes a record as its layout says.
-/

namespace GoldTables

/-! ## Lists of items -/

/-- Numbers, one entry each. -/
def numbers? : List Entry → Option (List UInt16)
  | [] => some []
  | .uint16 n :: rest => (numbers? rest).map (n :: ·)
  | _ => none

/-- Ranges of characters: first, last. -/
def ranges? : List Entry → Option (List CharacterRange)
  | [] => some []
  | .uint16 start :: .uint16 last :: rest => (ranges? rest).map (⟨start, last⟩ :: ·)
  | _ => none

/-- Edges of the automaton: character set, target, a reserved entry. -/
def edges? : List Entry → Option (List DfaEdge)
  | [] => some []
  | [.uint16 set, .uint16 target] => some [⟨set, target⟩]
  | .uint16 set :: .uint16 target :: _ :: rest => (edges? rest).map (⟨set, target⟩ :: ·)
  | _ => none

/-- Actions of a parser state: symbol, kind of action, target, a reserved entry. -/
def actions? : List Entry → Option (List LrAction)
  | [] => some []
  | [.uint16 symbol, .uint16 kind, .uint16 target] =>
    (Action.ofTable? kind target).map fun action => [⟨symbol, action⟩]
  | .uint16 symbol :: .uint16 kind :: .uint16 target :: _ :: rest => do
    let action ← Action.ofTable? kind target
    let actions ← actions? rest
    return ⟨symbol, action⟩ :: actions
  | _ => none

namespace TableRecord

/-! ## Records -/

/-- A property: index, name, value. -/
def propertyOf? : List Entry → Option TableRecord
  | .uint16 index :: .string _ :: .string value :: _ => some (.property index value)
  | _ => none

/-- The sizes of the six tables. -/
def tableCountsOf? : List Entry → Option TableRecord
  | .uint16 symbols :: .uint16 characterSets :: .uint16 productions :: .uint16 dfaStates ::
      .uint16 lrStates :: .uint16 groups :: _ =>
    some (.tableCounts ⟨symbols, characterSets, productions, dfaStates, lrStates, groups⟩)
  | _ => none

/-- The states in which the lexer's automaton and the parser start. -/
def initialStatesOf? : List Entry → Option TableRecord
  | .uint16 dfa :: .uint16 lr :: _ => some (.initialStates dfa lr)
  | _ => none

/-- A symbol: index, name, kind. -/
def symbolOf? : List Entry → Option TableRecord
  | .uint16 index :: .string name :: .uint16 code :: _ =>
    (SymbolKind.ofCode? code).map fun kind => .symbol index ⟨index, name, kind, none⟩
  | _ => none

/-- A character set: index, codepage, number of ranges, a reserved entry, the ranges. -/
def characterSetOf? : List Entry → Option TableRecord
  | .uint16 index :: .uint16 codepage :: .uint16 declared :: rest =>
    (ranges? rest.tail).map fun ranges => .characterSet index declared ⟨codepage, ranges⟩
  | _ => none

/-- A production: index, head, a reserved entry, the symbols of the body. -/
def productionOf? : List Entry → Option TableRecord
  | .uint16 index :: .uint16 head :: rest =>
    (numbers? rest.tail).map fun body => .production index ⟨index, head, body⟩
  | _ => none

/-- A state of the automaton: index, whether it accepts, the accepted symbol, a reserved entry,
    the edges. -/
def dfaStateOf? : List Entry → Option TableRecord
  | .uint16 index :: .boolean accepts :: .uint16 accepted :: rest =>
    (edges? rest.tail).map fun edges =>
      .dfaState index ⟨if accepts then some accepted else none, edges⟩
  | _ => none

/-- A parser state: index, a reserved entry, the actions. -/
def lrStateOf? : List Entry → Option TableRecord
  | .uint16 index :: rest =>
    (actions? rest.tail).map fun actions => .lrState index (LrState.ofActions actions)
  | _ => none

/-- Nested groups behind their number. -/
def nestingOf? : List Entry → Option (List UInt16)
  | .uint16 count :: rest =>
    if count.toNat ≤ rest.length then numbers? (rest.take count.toNat) else none
  | _ => none

/-- A group: index, name, container, start, end, advance mode, ending mode, a reserved entry, the
    nested groups. -/
def groupOf? : List Entry → Option TableRecord
  | .uint16 index :: .string name :: .uint16 container :: .uint16 start :: .uint16 finish ::
      .uint16 advance :: .uint16 ending :: rest => do
    let advance ← AdvanceMode.ofCode? advance
    let ending ← EndingMode.ofCode? ending
    let nesting ← nestingOf? rest.tail
    return .group index ⟨index, name, container, start, finish, advance, ending, nesting⟩
  | _ => none

/-- What the entries behind the kind of a record say. -/
def ofBody? (kind : RecordKind) (body : List Entry) : Option TableRecord :=
  match kind with
  | .property => propertyOf? body
  | .tableCounts => tableCountsOf? body
  | .initialStates => initialStatesOf? body
  | .symbol => symbolOf? body
  | .production => productionOf? body
  | .dfaState => dfaStateOf? body
  | .lrState => lrStateOf? body
  | .characterSet => characterSetOf? body
  | .group => groupOf? body

/-- What a record says; `none` if its kind is unknown or its entries are not laid out like that. -/
def ofEntries? : List Entry → Option TableRecord
  | .byte code :: body => (RecordKind.ofCode? code).bind fun kind => ofBody? kind body
  | _ => none

/-- The kind of a record. -/
def kind : TableRecord → RecordKind
  | .property _ _ => .property
  | .tableCounts _ => .tableCounts
  | .initialStates _ _ => .initialStates
  | .symbol _ _ => .symbol
  | .characterSet _ _ _ => .characterSet
  | .production _ _ => .production
  | .dfaState _ _ => .dfaState
  | .lrState _ _ => .lrState
  | .group _ _ => .group

/-- The row that a record describes carries the index that the record addresses, and a symbol
    knows no group. -/
def Numbered : TableRecord → Prop
  | .symbol index row => row.index = index ∧ row.group = none
  | .production index row => row.index = index
  | .group index row => row.index = index
  | _ => True

/-- The entries behind a kind say something of that kind, and a row under its own index. -/
theorem kind_of_ofBody? {kind : RecordKind} {body : List Entry} {record : TableRecord}
    (h : ofBody? kind body = some record) : record.kind = kind ∧ record.Numbered := by
  cases kind with
  | property | tableCounts | initialStates =>
    simp only [ofBody?, propertyOf?.eq_def, tableCountsOf?.eq_def, initialStatesOf?.eq_def] at h
    split at h
    · cases h
      exact ⟨rfl, trivial⟩
    · cases h
  | dfaState | lrState | characterSet =>
    simp only [ofBody?, dfaStateOf?.eq_def, lrStateOf?.eq_def, characterSetOf?.eq_def] at h
    split at h
    · obtain ⟨_, -, rfl⟩ := Option.map_eq_some_iff.1 h
      exact ⟨rfl, trivial⟩
    · cases h
  | symbol =>
    rw [ofBody?, symbolOf?.eq_def] at h
    split at h
    · obtain ⟨_, -, rfl⟩ := Option.map_eq_some_iff.1 h
      exact ⟨rfl, rfl, rfl⟩
    · cases h
  | production =>
    rw [ofBody?, productionOf?.eq_def] at h
    split at h
    · obtain ⟨_, -, rfl⟩ := Option.map_eq_some_iff.1 h
      exact ⟨rfl, rfl⟩
    · cases h
  | group =>
    rw [ofBody?, groupOf?.eq_def] at h
    split at h
    · obtain ⟨_, -, h⟩ := Option.bind_eq_some_iff.1 h
      obtain ⟨_, -, h⟩ := Option.bind_eq_some_iff.1 h
      obtain ⟨_, -, h⟩ := Option.bind_eq_some_iff.1 h
      cases h
      exact ⟨rfl, rfl⟩
    · cases h

/-- A row is described under the index that addresses it. -/
theorem numbered_of_ofEntries? {entries : List Entry} {record : TableRecord}
    (h : ofEntries? entries = some record) : record.Numbered := by
  rw [ofEntries?.eq_def] at h
  split at h
  · obtain ⟨_, -, h⟩ := Option.bind_eq_some_iff.1 h
    exact (kind_of_ofBody? h).2
  · cases h

end TableRecord

/-! ## Readers in front of entries that can be written -/

namespace RecordReader

/-- The reader stands inside a record before some entries, all of which can be written. -/
structure Faces (reader : RecordReader) (entries : List Entry) (rest : List UInt8) : Prop where
  holds : reader.Holds entries rest
  isWritable : ∀ entry ∈ entries, entry.isWritable = true

namespace Faces

variable {α : Type} {reader next : RecordReader} {entries : List Entry} {rest : List UInt8}

/-- One read takes the first entry, if there is one. -/
theorem entry {value : Entry} (h : reader.Faces entries rest)
    (hrun : readEntry reader = .ok value next) :
    next.Faces entries.tail rest ∧ (entries = [] → value = .empty) ∧
      ∀ first more, entries = first :: more → value = first := by
  cases entries with
  | nil =>
    replace hrun := get_bind_ok hrun
    rw [if_pos h.holds.recordComplete] at hrun
    obtain ⟨rfl, rfl⟩ := pure_ok hrun
    exact ⟨h, fun _ => rfl, fun _ _ hcons => absurd hcons (List.cons_ne_nil _ _).symm⟩
  | cons first more =>
    obtain ⟨hfirst, hmore⟩ := List.forall_mem_cons.1 h.isWritable
    obtain ⟨rfl, hholds⟩ := (Yields.entry first hfirst).eq_of_ok h.holds hrun
    refine ⟨⟨hholds, hmore⟩, fun hnil => absurd hnil (List.cons_ne_nil _ _), ?_⟩
    intro other others hsame
    cases hsame
    rfl

/-- A read of a value that the empty entry does not have takes an entry that has it. -/
theorem typed {expected : EntryType} {value? : Entry → Option α} {value : α}
    (hempty : value? .empty = none) (h : reader.Faces entries rest)
    (hrun : readTyped expected value? reader = .ok value next) :
    ∃ first more, entries = first :: more ∧ value? first = some value ∧ next.Faces more rest := by
  obtain ⟨found, middle, hfound, hrun⟩ := bind_ok (get_bind_ok hrun)
  obtain ⟨hnext, hnil, hcons⟩ := h.entry hfound
  cases hvalue : value? found with
  | none =>
    rw [hvalue] at hrun
    cases hrun
  | some other =>
    rw [hvalue] at hrun
    obtain ⟨rfl, rfl⟩ := pure_ok hrun
    cases entries with
    | nil =>
      rw [hnil rfl, hempty] at hvalue
      cases hvalue
    | cons first more =>
      rw [hcons first more rfl] at hvalue
      exact ⟨first, more, rfl, hvalue, hnext⟩

theorem number {n : UInt16} (h : reader.Faces entries rest)
    (hrun : readNumber reader = .ok n next) :
    ∃ more, entries = .uint16 n :: more ∧ next.Faces more rest := by
  obtain ⟨first, more, rfl, hvalue, hnext⟩ := h.typed rfl hrun
  cases first with
  | uint16 value =>
    cases hvalue
    exact ⟨more, rfl, hnext⟩
  | _ => cases hvalue

theorem text {s : String} (h : reader.Faces entries rest) (hrun : readText reader = .ok s next) :
    ∃ more, entries = .string s :: more ∧ next.Faces more rest := by
  obtain ⟨first, more, rfl, hvalue, hnext⟩ := h.typed rfl hrun
  cases first with
  | string value =>
    cases hvalue
    exact ⟨more, rfl, hnext⟩
  | _ => cases hvalue

theorem bool {b : Bool} (h : reader.Faces entries rest) (hrun : readBool reader = .ok b next) :
    ∃ more, entries = .boolean b :: more ∧ next.Faces more rest := by
  obtain ⟨first, more, rfl, hvalue, hnext⟩ := h.typed rfl hrun
  cases first with
  | boolean value =>
    cases hvalue
    exact ⟨more, rfl, hnext⟩
  | _ => cases hvalue

theorem byte {b : UInt8} (h : reader.Faces entries rest) (hrun : readByte reader = .ok b next) :
    ∃ more, entries = .byte b :: more ∧ next.Faces more rest := by
  obtain ⟨first, more, rfl, hvalue, hnext⟩ := h.typed rfl hrun
  cases first with
  | byte value =>
    cases hvalue
    exact ⟨more, rfl, hnext⟩
  | _ => cases hvalue

theorem code {field : CodeField} {ofCode? : UInt16 → Option α} {value : α}
    (h : reader.Faces entries rest)
    (hrun : TableRecord.readCode field ofCode? reader = .ok value next) :
    ∃ code more, entries = .uint16 code :: more ∧ ofCode? code = some value ∧
      next.Faces more rest := by
  obtain ⟨code, middle, hcode, hrun⟩ := bind_ok hrun
  obtain ⟨more, rfl, hmiddle⟩ := h.number hcode
  cases hvalue : ofCode? code with
  | none =>
    rw [hvalue] at hrun
    cases hrun
  | some meaning =>
    rw [hvalue] at hrun
    obtain ⟨rfl, rfl⟩ := pure_ok hrun
    exact ⟨code, more, rfl, hvalue, hmiddle⟩

end Faces

end RecordReader

/-! ## What is read is what the layout says -/

namespace TableRecord

open RecordReader

variable {α : Type} {reader next : RecordReader} {entries : List Entry} {rest : List UInt8}
  {record : TableRecord}

/-- A number of numbers, the last ones of a list of entries or not. -/
theorem numbers?_of_readTimes {n : Nat} {done values : List UInt16}
    (h : reader.Faces entries rest) (hrun : readTimes readNumber n done reader = .ok values next) :
    n ≤ entries.length ∧
      ∃ numbers, values = done.reverse ++ numbers ∧ numbers? (entries.take n) = some numbers := by
  induction n generalizing done reader entries with
  | zero =>
    obtain ⟨rfl, -⟩ := pure_ok hrun
    exact ⟨Nat.zero_le _, [], (List.append_nil _).symm, rfl⟩
  | succ n ih =>
    obtain ⟨value, middle, hvalue, hrun⟩ := bind_ok hrun
    obtain ⟨more, rfl, hmiddle⟩ := h.number hvalue
    obtain ⟨hlength, numbers, rfl, hnumbers⟩ := ih hmiddle hrun
    refine ⟨Nat.succ_le_succ hlength, value :: numbers, ?_, ?_⟩
    · rw [List.reverse_cons, List.append_assoc, List.singleton_append]
    · rw [List.take_succ_cons, numbers?, hnumbers, Option.map_some]

/-- Items up to the end of a record are what their layout says, if each one is. -/
theorem items_of_readItems {item : ReadM α} (items? : List Entry → Option (List α))
    {values : List α} (hnil : items? [] = some [])
    (hitem : ∀ {reader next : RecordReader} {entries : List Entry} {value : α},
      reader.Faces entries rest → item reader = .ok value next →
        ∃ more, next.Faces more rest ∧ more.length < entries.length ∧
          items? entries = (items? more).map (value :: ·))
    (h : reader.Faces entries rest) (hrun : readItems item reader = .ok values next) :
    items? entries = some values := by
  have hall : ∀ (n : Nat) (done : List α) (reader : RecordReader) (entries : List Entry),
      reader.Faces entries rest → entries.length ≤ n →
        readUntilComplete item n done reader = .ok values next →
          ∃ items, values = done.reverse ++ items ∧ items? entries = some items := by
    intro n
    induction n with
    | zero =>
      intro done reader entries _ hn hrun
      obtain ⟨rfl, -⟩ := pure_ok hrun
      obtain rfl := List.length_eq_zero_iff.1 (Nat.le_zero.1 hn)
      exact ⟨[], (List.append_nil _).symm, hnil⟩
    | succ n ih =>
      intro done reader entries h hn hrun
      replace hrun := get_bind_ok hrun
      split at hrun
      · next hcomplete =>
        obtain ⟨rfl, -⟩ := pure_ok hrun
        obtain rfl := h.holds.recordComplete_iff.1 hcomplete
        exact ⟨[], (List.append_nil _).symm, hnil⟩
      · obtain ⟨value, middle, hvalue, hrun⟩ := bind_ok hrun
        obtain ⟨more, hmiddle, hless, hentries⟩ := hitem h hvalue
        obtain ⟨items, rfl, hitems⟩ := ih (value :: done) middle more hmiddle (by omega) hrun
        refine ⟨value :: items, ?_, ?_⟩
        · rw [List.reverse_cons, List.append_assoc, List.singleton_append]
        · rw [hentries, hitems, Option.map_some]
  obtain ⟨items, rfl, hitems⟩ := hall _ [] reader entries h h.holds.length_le (get_bind_ok hrun)
  exact hitems

/-- The ranges of a character set. -/
theorem ranges?_of_readRange {range : CharacterRange} (h : reader.Faces entries rest)
    (hrun : readRange reader = .ok range next) :
    ∃ more, next.Faces more rest ∧ more.length < entries.length ∧
      ranges? entries = (ranges? more).map (range :: ·) := by
  obtain ⟨start, _, hstart, hrun⟩ := bind_ok hrun
  obtain ⟨last, _, hlast, hrun⟩ := bind_ok hrun
  obtain ⟨rfl, rfl⟩ := pure_ok hrun
  obtain ⟨_, rfl, h₁⟩ := h.number hstart
  obtain ⟨more, rfl, h₂⟩ := h₁.number hlast
  refine ⟨more, h₂, ?_, by rw [ranges?]⟩
  rw [List.length_cons, List.length_cons]
  omega

theorem numbers?_of_readNumber {n : UInt16} (h : reader.Faces entries rest)
    (hrun : readNumber reader = .ok n next) :
    ∃ more, next.Faces more rest ∧ more.length < entries.length ∧
      numbers? entries = (numbers? more).map (n :: ·) := by
  obtain ⟨more, rfl, h₁⟩ := h.number hrun
  exact ⟨more, h₁, Nat.lt_succ_self _, by rw [numbers?]⟩

theorem edges?_of_readEdge {edge : DfaEdge} (h : reader.Faces entries rest)
    (hrun : readEdge reader = .ok edge next) :
    ∃ more, next.Faces more rest ∧ more.length < entries.length ∧
      edges? entries = (edges? more).map (edge :: ·) := by
  obtain ⟨set, _, hset, hrun⟩ := bind_ok hrun
  obtain ⟨target, _, htarget, hrun⟩ := bind_ok hrun
  obtain ⟨_, _, hreserved, hrun⟩ := bind_ok hrun
  obtain ⟨rfl, rfl⟩ := pure_ok hrun
  obtain ⟨_, rfl, h₁⟩ := h.number hset
  obtain ⟨more, rfl, h₂⟩ := h₁.number htarget
  refine ⟨more.tail, (h₂.entry hreserved).1, ?_, ?_⟩
  · rw [List.length_cons, List.length_cons, List.length_tail]
    omega
  · cases more with
    | nil => rfl
    | cons _ more => rw [edges?, List.tail_cons]

theorem actions?_of_readAction {row : LrAction} (h : reader.Faces entries rest)
    (hrun : readAction reader = .ok row next) :
    ∃ more, next.Faces more rest ∧ more.length < entries.length ∧
      actions? entries = (actions? more).map (row :: ·) := by
  obtain ⟨symbol, _, hsymbol, hrun⟩ := bind_ok hrun
  obtain ⟨kind, _, hkind, hrun⟩ := bind_ok hrun
  obtain ⟨target, _, htarget, hrun⟩ := bind_ok hrun
  obtain ⟨_, _, hreserved, hrun⟩ := bind_ok hrun
  obtain ⟨_, rfl, h₁⟩ := h.number hsymbol
  obtain ⟨_, rfl, h₂⟩ := h₁.number hkind
  obtain ⟨more, rfl, h₃⟩ := h₂.number htarget
  cases haction : Action.ofTable? kind target with
  | none =>
    rw [haction] at hrun
    cases hrun
  | some action =>
    rw [haction] at hrun
    obtain ⟨rfl, rfl⟩ := pure_ok hrun
    refine ⟨more.tail, (h₃.entry hreserved).1, ?_, ?_⟩
    · rw [List.length_cons, List.length_cons, List.length_cons, List.length_tail]
      omega
    · cases more with
      | nil => simp [actions?, haction]
      | cons _ more =>
        rw [actions?, haction, List.tail_cons]
        cases actions? more <;> rfl

theorem propertyOf?_of_readProperty (h : reader.Faces entries rest)
    (hrun : readProperty reader = .ok record next) : propertyOf? entries = some record := by
  obtain ⟨index, _, hindex, hrun⟩ := bind_ok hrun
  obtain ⟨name, _, hname, hrun⟩ := bind_ok hrun
  obtain ⟨value, _, hvalue, hrun⟩ := bind_ok hrun
  obtain ⟨rfl, -⟩ := pure_ok hrun
  obtain ⟨_, rfl, h₁⟩ := h.number hindex
  obtain ⟨_, rfl, h₂⟩ := h₁.text hname
  obtain ⟨_, rfl, -⟩ := h₂.text hvalue
  rfl

theorem tableCountsOf?_of_readTableCounts (h : reader.Faces entries rest)
    (hrun : readTableCounts reader = .ok record next) : tableCountsOf? entries = some record := by
  obtain ⟨_, _, hsymbols, hrun⟩ := bind_ok hrun
  obtain ⟨_, _, hcharacterSets, hrun⟩ := bind_ok hrun
  obtain ⟨_, _, hproductions, hrun⟩ := bind_ok hrun
  obtain ⟨_, _, hdfaStates, hrun⟩ := bind_ok hrun
  obtain ⟨_, _, hlrStates, hrun⟩ := bind_ok hrun
  obtain ⟨_, _, hgroups, hrun⟩ := bind_ok hrun
  obtain ⟨rfl, -⟩ := pure_ok hrun
  obtain ⟨_, rfl, h₁⟩ := h.number hsymbols
  obtain ⟨_, rfl, h₂⟩ := h₁.number hcharacterSets
  obtain ⟨_, rfl, h₃⟩ := h₂.number hproductions
  obtain ⟨_, rfl, h₄⟩ := h₃.number hdfaStates
  obtain ⟨_, rfl, h₅⟩ := h₄.number hlrStates
  obtain ⟨_, rfl, -⟩ := h₅.number hgroups
  rfl

theorem initialStatesOf?_of_readInitialStates (h : reader.Faces entries rest)
    (hrun : readInitialStates reader = .ok record next) :
    initialStatesOf? entries = some record := by
  obtain ⟨_, _, hdfa, hrun⟩ := bind_ok hrun
  obtain ⟨_, _, hlr, hrun⟩ := bind_ok hrun
  obtain ⟨rfl, -⟩ := pure_ok hrun
  obtain ⟨_, rfl, h₁⟩ := h.number hdfa
  obtain ⟨_, rfl, -⟩ := h₁.number hlr
  rfl

theorem symbolOf?_of_readSymbol (h : reader.Faces entries rest)
    (hrun : readSymbol reader = .ok record next) : symbolOf? entries = some record := by
  obtain ⟨index, _, hindex, hrun⟩ := bind_ok hrun
  obtain ⟨name, _, hname, hrun⟩ := bind_ok hrun
  obtain ⟨kind, _, hkind, hrun⟩ := bind_ok hrun
  obtain ⟨rfl, -⟩ := pure_ok hrun
  obtain ⟨_, rfl, h₁⟩ := h.number hindex
  obtain ⟨_, rfl, h₂⟩ := h₁.text hname
  obtain ⟨code, _, rfl, hcode, -⟩ := h₂.code hkind
  rw [symbolOf?, hcode, Option.map_some]

theorem characterSetOf?_of_readCharacterSet (h : reader.Faces entries rest)
    (hrun : readCharacterSet reader = .ok record next) :
    characterSetOf? entries = some record := by
  obtain ⟨index, _, hindex, hrun⟩ := bind_ok hrun
  obtain ⟨codepage, _, hcodepage, hrun⟩ := bind_ok hrun
  obtain ⟨declared, _, hdeclared, hrun⟩ := bind_ok hrun
  obtain ⟨_, _, hreserved, hrun⟩ := bind_ok hrun
  obtain ⟨ranges, _, hranges, hrun⟩ := bind_ok hrun
  obtain ⟨rfl, -⟩ := pure_ok hrun
  obtain ⟨_, rfl, h₁⟩ := h.number hindex
  obtain ⟨_, rfl, h₂⟩ := h₁.number hcodepage
  obtain ⟨more, rfl, h₃⟩ := h₂.number hdeclared
  have hitems := items_of_readItems ranges? rfl ranges?_of_readRange (h₃.entry hreserved).1 hranges
  rw [characterSetOf?, hitems, Option.map_some]

theorem productionOf?_of_readProduction (h : reader.Faces entries rest)
    (hrun : readProduction reader = .ok record next) : productionOf? entries = some record := by
  obtain ⟨index, _, hindex, hrun⟩ := bind_ok hrun
  obtain ⟨head, _, hhead, hrun⟩ := bind_ok hrun
  obtain ⟨_, _, hreserved, hrun⟩ := bind_ok hrun
  obtain ⟨body, _, hbody, hrun⟩ := bind_ok hrun
  obtain ⟨rfl, -⟩ := pure_ok hrun
  obtain ⟨_, rfl, h₁⟩ := h.number hindex
  obtain ⟨more, rfl, h₂⟩ := h₁.number hhead
  have hitems := items_of_readItems numbers? rfl numbers?_of_readNumber (h₂.entry hreserved).1 hbody
  rw [productionOf?, hitems, Option.map_some]

theorem dfaStateOf?_of_readDfaState (h : reader.Faces entries rest)
    (hrun : readDfaState reader = .ok record next) : dfaStateOf? entries = some record := by
  obtain ⟨index, _, hindex, hrun⟩ := bind_ok hrun
  obtain ⟨accepts, _, haccepts, hrun⟩ := bind_ok hrun
  obtain ⟨accepted, _, haccepted, hrun⟩ := bind_ok hrun
  obtain ⟨_, _, hreserved, hrun⟩ := bind_ok hrun
  obtain ⟨edges, _, hedges, hrun⟩ := bind_ok hrun
  obtain ⟨rfl, -⟩ := pure_ok hrun
  obtain ⟨_, rfl, h₁⟩ := h.number hindex
  obtain ⟨_, rfl, h₂⟩ := h₁.bool haccepts
  obtain ⟨more, rfl, h₃⟩ := h₂.number haccepted
  have hitems := items_of_readItems edges? rfl edges?_of_readEdge (h₃.entry hreserved).1 hedges
  rw [dfaStateOf?, hitems, Option.map_some]

theorem lrStateOf?_of_readLrState (h : reader.Faces entries rest)
    (hrun : readLrState reader = .ok record next) : lrStateOf? entries = some record := by
  obtain ⟨index, _, hindex, hrun⟩ := bind_ok hrun
  obtain ⟨_, _, hreserved, hrun⟩ := bind_ok hrun
  obtain ⟨actions, _, hactions, hrun⟩ := bind_ok hrun
  obtain ⟨rfl, -⟩ := pure_ok hrun
  obtain ⟨more, rfl, h₁⟩ := h.number hindex
  have hitems :=
    items_of_readItems actions? rfl actions?_of_readAction (h₁.entry hreserved).1 hactions
  rw [lrStateOf?, hitems, Option.map_some]

theorem groupOf?_of_readGroup (h : reader.Faces entries rest)
    (hrun : readGroup reader = .ok record next) : groupOf? entries = some record := by
  obtain ⟨index, _, hindex, hrun⟩ := bind_ok hrun
  obtain ⟨name, _, hname, hrun⟩ := bind_ok hrun
  obtain ⟨container, _, hcontainer, hrun⟩ := bind_ok hrun
  obtain ⟨start, _, hstart, hrun⟩ := bind_ok hrun
  obtain ⟨finish, _, hfinish, hrun⟩ := bind_ok hrun
  obtain ⟨advance, _, hadvance, hrun⟩ := bind_ok hrun
  obtain ⟨ending, _, hending, hrun⟩ := bind_ok hrun
  obtain ⟨_, _, hreserved, hrun⟩ := bind_ok hrun
  obtain ⟨count, _, hcount, hrun⟩ := bind_ok hrun
  obtain ⟨nesting, _, hnesting, hrun⟩ := bind_ok hrun
  obtain ⟨rfl, -⟩ := pure_ok hrun
  obtain ⟨_, rfl, h₁⟩ := h.number hindex
  obtain ⟨_, rfl, h₂⟩ := h₁.text hname
  obtain ⟨_, rfl, h₃⟩ := h₂.number hcontainer
  obtain ⟨_, rfl, h₄⟩ := h₃.number hstart
  obtain ⟨_, rfl, h₅⟩ := h₄.number hfinish
  obtain ⟨_, _, rfl, hadvance, h₆⟩ := h₅.code hadvance
  obtain ⟨_, more, rfl, hending, h₇⟩ := h₆.code hending
  obtain ⟨behind, hbehind, h₈⟩ := (h₇.entry hreserved).1.number hcount
  obtain ⟨hlength, _, rfl, hnumbers⟩ := numbers?_of_readTimes h₈ hnesting
  have hnested : nestingOf? more.tail = some nesting := by
    rw [hbehind, nestingOf?, if_pos hlength, hnumbers]
  rw [groupOf?, hadvance, hending, hnested]
  rfl

/-- A reader takes a record as its layout says. -/
theorem ofBody?_of_readBody {counted : Bool} {kind : RecordKind} (h : reader.Faces entries rest)
    (hrun : readBody counted kind reader = .ok record next) :
    ofBody? kind entries = some record := by
  cases kind with
  | property => exact propertyOf?_of_readProperty h hrun
  | tableCounts => exact tableCountsOf?_of_readTableCounts h hrun
  | initialStates => exact initialStatesOf?_of_readInitialStates h hrun
  | symbol =>
    cases counted with | false => cases hrun | true => exact symbolOf?_of_readSymbol h hrun
  | production =>
    cases counted with | false => cases hrun | true => exact productionOf?_of_readProduction h hrun
  | dfaState =>
    cases counted with | false => cases hrun | true => exact dfaStateOf?_of_readDfaState h hrun
  | lrState =>
    cases counted with | false => cases hrun | true => exact lrStateOf?_of_readLrState h hrun
  | characterSet =>
    cases counted with
    | false => cases hrun
    | true => exact characterSetOf?_of_readCharacterSet h hrun
  | group =>
    cases counted with | false => cases hrun | true => exact groupOf?_of_readGroup h hrun

end TableRecord

end GoldTables

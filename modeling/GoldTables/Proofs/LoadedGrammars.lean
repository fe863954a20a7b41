import GoldTables.Grammar.JsonReader
import GoldTables.Proofs.LexerRuns
import GoldTables.Proofs.Linking

/-!
# Loaded grammars

What a lexer and a parser rely on holds of every grammar that was loaded from a
file: all indices are in range, the symbols for the end of the input and for
unmatched text have their kinds, symbols know existing groups only, and the
actions of each parser state are found by their symbols.

The tables of a JSON document may be of any size, so that a row's place need
not fit into its index. What makes a grammar out of them is the same; only the
kinds of the two symbols are not certain.

Results:
* `Grammar.linked_of_link`: what holds of the grammars that tables of any size are linked to.
* `Grammar.linked_of_load`: every grammar from a file or from JSON is one of these.
* `Grammar.loaded_of_ofBytes`: what holds of every grammar from a file.
* `LrState.Indexed.action?_eq`: the action in effect is the first one on its symbol.
* `Grammar.Linked.groupsExist_step`: the lexer keeps only groups open that exist.
* `Grammar.Loaded.nextTokenWithin_of_work`: there always is a next token, within the work that is
  left.
* `Grammar.Loaded.kind_of_token`, `Grammar.Loaded.nextToken`: the tokens of such a grammar have
  symbols that exist, and inside a group only the end of the input is a token.
-/

namespace GoldTables

/-! ## Actions are found by their symbols -/

namespace LrState

/-- Every symbol leads to the first of its actions. -/
def FindsFirst (state : LrState) : Prop :=
  ∀ symbol, state.places[symbol]? =
    state.actions.toList.findIdx? fun row => row.symbol = symbol

theorem FindsFirst.push {state : LrState} (h : state.FindsFirst) (symbol : UInt16)
    (action : Action) : (state.push symbol action).FindsFirst := by
  intro other
  have hmem : symbol ∈ state.places ↔
      (state.actions.toList.findIdx? fun row => row.symbol = symbol).isSome = true := by
    rw [← h symbol, Std.TreeMap.mem_iff_isSome_getElem?]
  show (state.places.insertIfNew symbol state.actions.size)[other]? =
    (state.actions.push ⟨symbol, action⟩).toList.findIdx? _
  rw [Std.TreeMap.getElem?_insertIfNew, Array.toList_push, List.findIdx?_append, h other]
  simp only [hmem, Std.LawfulEqCmp.compare_eq_iff_eq]
  by_cases heq : symbol = other
  · subst heq
    cases hfind : state.actions.toList.findIdx? fun row => row.symbol = symbol with
    | none => simp
    | some place => simp
  · simp [heq]

theorem findsFirst_foldl (rows : List LrAction) {state : LrState} (h : state.FindsFirst) :
    (rows.foldl (fun state row => state.push row.symbol row.action) state).FindsFirst := by
  induction rows generalizing state with
  | nil => exact h
  | cons row rows ih => exact ih (h.push row.symbol row.action)

theorem Indexed.findsFirst {state : LrState} (h : state.Indexed) : state.FindsFirst := by
  rw [h]
  refine findsFirst_foldl _ fun symbol => ?_
  simp [empty]

/-- The action in effect on a symbol is the first one on it. -/
theorem Indexed.action?_eq {state : LrState} (h : state.Indexed) (symbol : UInt16) :
    state.action? symbol =
      (state.actions.toList.find? fun row => row.symbol = symbol).map LrAction.action := by
  rw [List.find?_eq_bind_findIdx?_getElem?, ← h.findsFirst symbol]
  show ((state.places[symbol]?).bind fun place => (state.actions[place]?).bind fun row =>
    some row.action) = _
  cases state.places[symbol]? with
  | none => rfl
  | some place =>
    rw [Option.bind_some, Option.bind_some, Array.getElem?_toList]
    cases state.actions[place]? <;> rfl

end LrState

/-! ## Symbols know existing groups -/

/-- The groups that symbols know are among the first ones, up to a number. -/
def GroupsBelow (size : Nat) (symbols : Array Symbol) : Prop :=
  ∀ symbol ∈ symbols, ∀ group, symbol.group = some group → group.toNat < size

namespace Tables

variable {tables : Tables} {size : Nat} {symbols : Array Symbol}

theorem groupsBelow_linkSymbol {index group : UInt16} (h : GroupsBelow size symbols)
    (hgroup : group.toNat < size) : GroupsBelow size (linkSymbol symbols index group) := by
  intro symbol hsymbol other hother
  obtain ⟨i, hi⟩ := Array.mem_iff_getElem?.1 hsymbol
  rw [linkSymbol, Array.getElem?_modify] at hi
  split at hi
  · obtain ⟨_, _, rfl⟩ := Option.map_eq_some_iff.1 hi
    cases hother
    exact hgroup
  · exact h symbol (Array.mem_of_getElem? hi) other hother

theorem groupsBelow_linkGroup {group : Group} (h : GroupsBelow size symbols)
    (hgroup : group.index.toNat < size) : GroupsBelow size (linkGroup symbols group) :=
  groupsBelow_linkSymbol (groupsBelow_linkSymbol (groupsBelow_linkSymbol h hgroup) hgroup) hgroup

/-- Numbered groups have places among the groups. -/
theorem toNat_index_lt_of_mem {group : Group} (h : group ∈ tables.renumber.groups) :
    group.index.toNat < tables.groups.size := by
  obtain ⟨i, hi, rfl⟩ := Array.mem_mapIdx.1 h
  exact Nat.lt_of_le_of_lt (Nat.mod_le _ _) hi

theorem groupsBelow_linkGroups (tables : Tables) :
    GroupsBelow tables.groups.size tables.renumber.linkGroups.symbols := by
  have hnone : GroupsBelow tables.groups.size tables.renumber.symbols := by
    intro symbol hsymbol group hgroup
    obtain ⟨_, _, rfl⟩ := Array.mem_mapIdx.1 hsymbol
    cases hgroup
  exact Array.foldl_induction (fun _ symbols => GroupsBelow tables.groups.size symbols) hnone
    fun i _ ih => groupsBelow_linkGroup ih (toNat_index_lt_of_mem (Array.getElem_mem i.2))

end Tables

/-! ## Loaded grammars -/

/-- What holds of every grammar that tables were linked to, whatever their size. -/
structure Grammar.Linked (grammar : Grammar) : Prop where
  inRange : grammar.toTables.InRange
  endSymbol : grammar.endSymbol.toNat < grammar.symbols.size
  errorSymbol : grammar.errorSymbol.toNat < grammar.symbols.size
  groups : GroupsBelow grammar.groups.size grammar.symbols
  indexed : ∀ state ∈ grammar.lrStates, state.Indexed

theorem Grammar.linked_of_link {tables : Tables} {grammar : Grammar}
    (h : tables.link = .ok grammar) : grammar.Linked := by
  obtain ⟨hrange, endSymbol, errorSymbol, hend, herror, rfl⟩ := Tables.link_eq_ok_iff.1 h
  exact {
    inRange := hrange.linkGroups
    endSymbol := Tables.toNat_lt_of_neededSymbol hend
    errorSymbol := Tables.toNat_lt_of_neededSymbol herror
    groups := fun symbol hsymbol group hgroup =>
      Nat.lt_of_lt_of_eq (tables.groupsBelow_linkGroups symbol hsymbol group hgroup)
        Array.size_mapIdx.symm
    indexed := tables.indexed_renumber }

/-- A grammar that was read from JSON was linked from the tables of the document, whatever their
    size. -/
theorem Grammar.ofDocument_eq_ok {document : List UInt8} {grammar : Grammar}
    (h : ofDocument document = .ok grammar) :
    ∃ tables, (Json.parse? document).bind Tables.ofJson? = some tables ∧
      tables.link = .ok grammar := by
  rw [ofDocument] at h
  split at h
  · next tables htables => exact ⟨tables, htables, h⟩
  · cases h

/-- What holds of every grammar that was loaded from a file. -/
structure Grammar.Loaded (grammar : Grammar) : Prop where
  inRange : grammar.toTables.InRange
  endKind : grammar.kind? grammar.endSymbol = some .endOfInput
  errorKind : grammar.kind? grammar.errorSymbol = some .error
  groups : GroupsBelow grammar.groups.size grammar.symbols
  indexed : ∀ state ∈ grammar.lrStates, state.Indexed

/-- A grammar comes from tables that fit into records. -/
theorem Grammar.ofBytes_eq_ok {bytes : List UInt8} {grammar : Grammar}
    (h : ofBytes bytes = .ok grammar) :
    ∃ tables : Tables, tables.Fits ∧ tables.link = .ok grammar := by
  obtain ⟨reader, _, h⟩ := except_bind_eq_ok.1 h
  obtain ⟨tables, htables, h⟩ := except_bind_eq_ok.1 h
  exact ⟨tables, fits_of_ofRecords (fun _ => fits_of_mem_tableRecords) htables, h⟩

/-- What holds of every grammar from a file. -/
theorem Grammar.loaded_of_ofBytes {bytes : List UInt8} {grammar : Grammar}
    (h : ofBytes bytes = .ok grammar) : grammar.Loaded := by
  obtain ⟨tables, hfits, hlink⟩ := ofBytes_eq_ok h
  have hlinked := linked_of_link hlink
  obtain ⟨-, endSymbol, errorSymbol, hend, herror, rfl⟩ := Tables.link_eq_ok_iff.1 hlink
  exact {
    inRange := hlinked.inRange
    endKind := Tables.kind?_of_neededSymbol hfits.symbols.1 hend
    errorKind := Tables.kind?_of_neededSymbol hfits.symbols.1 herror
    groups := hlinked.groups
    indexed := hlinked.indexed }

theorem Tables.toNat_lt_of_kind? {tables : Tables} {symbol : UInt16} {kind : SymbolKind}
    (h : tables.kind? symbol = some kind) : symbol.toNat < tables.symbols.size := by
  obtain ⟨row, hrow, -⟩ := Option.map_eq_some_iff.1 h
  exact (Array.getElem?_eq_some_iff.1 hrow).1

theorem Grammar.Loaded.linked {grammar : Grammar} (h : grammar.Loaded) : grammar.Linked where
  inRange := h.inRange
  endSymbol := Tables.toNat_lt_of_kind? h.endKind
  errorSymbol := Tables.toNat_lt_of_kind? h.errorKind
  groups := h.groups
  indexed := h.indexed

/-- Every grammar from a file or from JSON is linked. -/
theorem Grammar.linked_of_load {grammar : Grammar}
    (h : (∃ bytes, ofBytes bytes = .ok grammar) ∨
      ∃ document, ofDocument document = .ok grammar) : grammar.Linked := by
  rcases h with ⟨bytes, hbytes⟩ | ⟨document, hdocument⟩
  · exact (loaded_of_ofBytes hbytes).linked
  · obtain ⟨tables, -, hlink⟩ := ofDocument_eq_ok hdocument
    exact linked_of_link hlink

/-- The letter `a` with blanks around it, in a file out of order: a row that is described twice,
    reserved entries that are missing or in use, an entry too many, and a wrong number of
    ranges. -/
def sampleFile : List UInt8 :=
  textBytes "Any header" ++ [
    kindRecord .tableCounts [.uint16 5, .uint16 2, .uint16 1, .uint16 3, .uint16 3, .uint16 0],
    kindRecord .symbol [.uint16 1, .string "Error", .uint16 7, .byte 9],
    kindRecord .symbol [.uint16 0, .string "EOF", .uint16 1],
    kindRecord .symbol [.uint16 0, .string "EOF", .uint16 3],
    kindRecord .symbol [.uint16 2, .string "Blank", .uint16 2],
    kindRecord .symbol [.uint16 3, .string "a", .uint16 1],
    kindRecord .symbol [.uint16 4, .string "S", .uint16 0],
    kindRecord .production [.uint16 0, .uint16 4, .boolean true, .uint16 3],
    kindRecord .lrState [.uint16 2, .empty, .uint16 0, .uint16 4, .uint16 7],
    kindRecord .lrState [.uint16 0, .empty, .uint16 3, .uint16 1, .uint16 1, .empty,
      .uint16 4, .uint16 3, .uint16 2, .empty],
    kindRecord .lrState [.uint16 1, .empty, .uint16 0, .uint16 2, .uint16 0],
    kindRecord .characterSet [.uint16 0, .uint16 0, .uint16 5, .empty, .uint16 97, .uint16 97],
    kindRecord .characterSet [.uint16 1, .uint16 0, .uint16 1, .empty, .uint16 32, .uint16 32],
    kindRecord .dfaState [.uint16 0, .boolean false, .uint16 0, .empty,
      .uint16 0, .uint16 1, .empty, .uint16 1, .uint16 2, .empty],
    kindRecord .dfaState [.uint16 1, .boolean true, .uint16 3],
    kindRecord .dfaState [.uint16 2, .boolean true, .uint16 2]].flatMap recordBytes

/-- Whether a grammar is loaded that passes a test. -/
def Grammar.passes (bytes : List UInt8) (test : Grammar → Bool) : Bool :=
  match ofBytes bytes with
  | .ok grammar => test grammar
  | .error _ => false

theorem Grammar.exists_of_passes {bytes : List UInt8} {test : Grammar → Bool}
    (h : passes bytes test = true) :
    ∃ grammar, ofBytes bytes = .ok grammar ∧ test grammar = true := by
  rw [passes] at h
  split at h
  · next grammar hgrammar => exact ⟨grammar, hgrammar, h⟩
  · cases h

theorem Grammar.exists_ofBytes_sampleFile : ∃ grammar, ofBytes sampleFile = .ok grammar := by
  have hpasses : passes sampleFile (fun _ => true) = true := by decide +kernel
  obtain ⟨grammar, hgrammar, -⟩ := exists_of_passes hpasses
  exact ⟨grammar, hgrammar⟩

/-! ## Symbols of stretches of text -/

theorem Tables.exists_kind {tables : Tables} {symbol : UInt16}
    (h : symbol.toNat < tables.symbols.size) : ∃ kind, tables.kind? symbol = some kind := by
  refine ⟨tables.symbols[symbol.toNat].kind, ?_⟩
  rw [kind?, symbol?, Array.getElem?_eq_getElem h, Option.map_some]

/-- What holds of all symbols that the automaton accepts holds of what it finds. -/
theorem scan_accepted (tables : Tables) {p : UInt16 → Prop}
    (hp : ∀ state symbol, tables.accepted? state = some symbol → p symbol) (text : List Char)
    (state : UInt16) (taken : Nat) (best : Option (UInt16 × Nat))
    (hbest : ∀ s n, best = some (s, n) → p s) :
    ∀ s n, (scan tables state taken best text).1 = some (s, n) → p s := by
  induction text generalizing state taken best with
  | nil => exact hbest
  | cons c rest ih =>
    rw [scan]
    split
    · exact hbest
    · next target _ =>
      refine ih _ _ _ fun s n h => ?_
      split at h
      · next symbol haccepted =>
        cases h
        exact hp target _ haccepted
      · exact hbest s n h

/-- The text found is empty at the end of the input only. -/
theorem recognize_isEmpty {grammar : Grammar} {text : List Char}
    (h : (grammar.recognize text).1.text.isEmpty = true) :
    (grammar.recognize text).1.symbol = grammar.endSymbol := by
  have hlength := (recognize_length grammar text).2
  rw [List.isEmpty_iff.1 h] at hlength
  cases text with
  | nil => rfl
  | cons c rest => exact absurd (hlength (List.cons_ne_nil c rest)) (Nat.lt_irrefl 0)

/-- The symbol found exists. -/
theorem Grammar.Linked.toNat_lt_recognize {grammar : Grammar} (h : grammar.Linked)
    (text : List Char) : (grammar.recognize text).1.symbol.toNat < grammar.symbols.size := by
  have haccepted : ∀ state symbol, grammar.accepted? state = some symbol →
      symbol.toNat < grammar.symbols.size := by
    intro state symbol haccepted
    obtain ⟨row, hrow, hsymbol⟩ := Option.bind_eq_some_iff.1 haccepted
    exact (h.inRange.dfaStates row (Array.mem_of_getElem? hrow)).accept symbol hsymbol
  cases text with
  | nil => exact h.endSymbol
  | cons c rest =>
    have hscan := scan_accepted grammar.toTables haccepted (c :: rest) grammar.dfaInitial 0 none
      (by nofun)
    rw [recognize]
    split
    · next symbol length looked heq => exact hscan symbol length (by rw [heq])
    · exact h.errorSymbol

/-! ## Open groups -/

/-- The open groups of a lexer exist. -/
def Grammar.Loaded.GroupsExist (grammar : Grammar) (lexer : Lexer) : Prop :=
  ∀ opened ∈ lexer.groups, opened.group.toNat < grammar.groups.size

namespace Grammar.Linked

open Grammar.Loaded

variable {grammar : Grammar} {lexer : Lexer}

/-- A group that is opened exists. -/
theorem toNat_lt_of_opens? (h : grammar.Linked) {symbol group : UInt16}
    (hopens : lexer.opens? grammar symbol = some group) : group.toNat < grammar.groups.size := by
  obtain ⟨row, hrow, -, hgroup⟩ := Lexer.exists_row_of_opens? hopens
  exact h.groups row (Array.mem_of_getElem? hrow) group hgroup

/-- The lexer keeps only groups open that exist. -/
theorem groupsExist_step (h : grammar.Linked) {step : Lexer.GroupStep}
    (hstep : Lexer.Step grammar (lexer.peek grammar).1 (lexer.peek grammar).2 step)
    (hgroups : GroupsExist grammar lexer) : GroupsExist grammar step.lexer := by
  rw [GroupsExist, ← Lexer.peek_groups lexer grammar] at hgroups
  cases hstep with
  | opening hopens =>
    intro opened hopened
    rcases List.mem_cons.1 hopened with rfl | hopened
    · exact h.toNat_lt_of_opens? hopens
    · exact hgroups opened hopened
  | outside => exact hgroups
  | unknownGroup => exact hgroups
  | closeOuter => exact fun _ hmem => absurd hmem List.not_mem_nil
  | @closeInner top parent outer group hopens houter =>
    rw [houter] at hgroups
    intro opened hopened
    rcases List.mem_cons.1 hopened with rfl | hopened
    · exact hgroups parent (List.mem_cons_of_mem _ List.mem_cons_self)
    · exact hgroups opened (List.mem_cons_of_mem _ (List.mem_cons_of_mem _ hopened))
  | runaway => exact hgroups
  | @gather top outer group hopens houter =>
    rw [houter] at hgroups
    intro opened hopened
    rcases List.mem_cons.1 hopened with rfl | hopened
    · exact hgroups top List.mem_cons_self
    · exact hgroups opened (List.mem_cons_of_mem _ hopened)

/-- Behind any number of steps only groups are open that exist. -/
theorem groupsExist_stepsWithin (h : grammar.Linked) (hgroups : GroupsExist grammar lexer)
    (n : Nat) : GroupsExist grammar (Lexer.stepsWithin grammar n lexer).lexer := by
  induction n generalizing lexer with
  | zero => exact hgroups
  | succ n ih =>
    have hnext := h.groupsExist_step (Lexer.step_groupStep grammar lexer) hgroups
    cases hstep : lexer.groupStep grammar with
    | token token next =>
      rw [hstep] at hnext
      rw [Lexer.stepsWithin_token hstep]
      exact hnext
    | again next =>
      rw [hstep] at hnext
      rw [Lexer.stepsWithin_again hstep]
      exact ih hnext

theorem groupsExist_nextToken (h : grammar.Linked) (hgroups : GroupsExist grammar lexer) :
    GroupsExist grammar (lexer.nextToken grammar).2 := by
  have hsteps := h.groupsExist_stepsWithin hgroups lexer.stepBound
  rw [Lexer.nextToken]
  cases hrun : Lexer.stepsWithin grammar lexer.stepBound lexer with
  | token token next =>
    rw [hrun] at hsteps
    exact hsteps
  | again next =>
    rw [hrun] at hsteps
    exact hsteps

end Grammar.Linked

/-! ## Tokens -/

namespace Grammar.Loaded

variable {grammar : Grammar}

/-- More steps than there is work left lead to the next token. -/
theorem nextTokenWithin_of_work (h : grammar.Loaded) {lexer : Lexer} {n : Nat}
    (hwork : lexer.work < n) :
    Lexer.nextTokenWithin grammar n lexer = some (lexer.nextToken grammar) := by
  obtain ⟨token, next, hrun⟩ := Lexer.stepsWithin_of_work h.endKind hwork
  rw [Lexer.nextTokenWithin_eq_some_iff.2 hrun,
    Lexer.nextToken_of_nextToken? (Lexer.nextToken?_eq_some_iff.2 ⟨n, hrun⟩)]

/-- There always is a next token. -/
theorem nextToken?_eq (h : grammar.Loaded) (lexer : Lexer) :
    lexer.nextToken? grammar = some (lexer.nextToken grammar) :=
  h.nextTokenWithin_of_work (Nat.lt_add_of_pos_right Nat.two_pos)

/-- A step without a token does not change what the next token is. -/
theorem nextToken_of_again (h : grammar.Loaded) {lexer next : Lexer}
    (hstep : lexer.groupStep grammar = .again next) :
    lexer.nextToken grammar = next.nextToken grammar :=
  Option.some.inj ((h.nextToken?_eq lexer).symm.trans
    ((Lexer.nextToken?_of_again hstep).trans (h.nextToken?_eq next)))

/-- A step yields a token with a symbol that exists, and inside a group it is the end of the
    input. -/
theorem kind_of_token (h : grammar.Loaded) {lexer next : Lexer} {token : Token}
    (hgroups : GroupsExist grammar lexer)
    (hstep : Lexer.Step grammar (lexer.peek grammar).1 (lexer.peek grammar).2
      (.token token next)) :
    (∃ kind, grammar.kind? token.symbol = some kind) ∧
      (next.inGroup = true → grammar.kind? token.symbol = some .endOfInput) := by
  have hkind : ∃ kind, grammar.kind? (lexer.peek grammar).1.symbol = some kind :=
    Tables.exists_kind (h.linked.toNat_lt_recognize lexer.rest)
  cases hstep with
  | outside hopens hnone =>
    refine ⟨hkind, fun hin => ?_⟩
    have hempty : ((lexer.peek grammar).2.consume
      (lexer.peek grammar).1.text.length).groups = [] := hnone
    rw [Lexer.inGroup, hempty] at hin
    cases hin
  | unknownGroup hopens houter hunknown =>
    rw [GroupsExist, ← Lexer.peek_groups lexer grammar, houter] at hgroups
    have hlt := hgroups _ List.mem_cons_self
    rw [Tables.group?, Array.getElem?_eq_getElem hlt] at hunknown
    cases hunknown
  | @closeOuter top group hopens houter hgroup hfinish =>
    refine ⟨?_, fun hin => by cases hin⟩
    exact Tables.exists_kind (h.inRange.groups group (Array.mem_of_getElem? hgroup)).container
  | runaway hopens houter hgroup hfinish hend => exact ⟨hkind, fun _ => hend⟩

/-- A token has a symbol that exists, and inside a group it is the end of the input. -/
theorem nextToken (h : grammar.Loaded) {lexer : Lexer} (hgroups : GroupsExist grammar lexer) :
    GroupsExist grammar (lexer.nextToken grammar).2 ∧
      (∃ kind, grammar.kind? (lexer.nextToken grammar).1.symbol = some kind) ∧
      ((lexer.nextToken grammar).2.inGroup = true →
        grammar.kind? (lexer.nextToken grammar).1.symbol = some .endOfInput) := by
  refine ⟨h.linked.groupsExist_nextToken hgroups, ?_⟩
  refine Lexer.nextToken?_of_invariant (GroupsExist grammar)
    (fun token next => (∃ kind, grammar.kind? token.symbol = some kind) ∧
      (next.inGroup = true → grammar.kind? token.symbol = some .endOfInput)) ?_ ?_ hgroups
    (h.nextToken?_eq lexer)
  · intro lexer next hgroups hstep
    have hnext := h.linked.groupsExist_step hstep hgroups
    exact hnext
  · intro lexer token next hgroups hstep
    exact h.kind_of_token hgroups hstep

end Grammar.Loaded

end GoldTables

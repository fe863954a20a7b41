import GoldTables.Lexer.Automaton

/-!
# The longest match

`scan` goes over a text once, state by state, and keeps the last match that it
has come across. What it finds in the end is said here without it: the
automaton runs over a text as its edges tell, always along the first one that
takes the next character, and the token at the start of a text is its longest
beginning that such a run accepts. How much of the text a lexer has drawn from
its source before makes no difference.

Results:
* `Tables.nextState?_eq_some`: the automaton moves along the first edge that takes a character.
* `Tables.scan_longest`: what is found is the longest match behind a state, if there is one.
* `Lexer.nextRaw_eq_iff`: the token of the automaton, at the end of the text, at a match, and
  where nothing matches.
-/

namespace GoldTables

/-! ## Runs of the automaton -/

namespace Tables

/-- An edge takes the characters in the ranges of its set. -/
def Takes (tables : Tables) (edge : DfaEdge) (c : Char) : Prop :=
  ∃ set, tables.characterSets[edge.set.toNat]? = some set ∧
    ∃ range ∈ set.ranges, range.start.toNat ≤ c.toNat ∧ c.toNat ≤ range.last.toNat

/-- The automaton goes from a state to another along the first edge that takes a character. -/
def Moves (tables : Tables) (state : UInt16) (c : Char) (target : UInt16) : Prop :=
  ∃ row before edge after, tables.dfaStates[state.toNat]? = some row ∧
    row.edges = before ++ edge :: after ∧ (∀ other ∈ before, ¬tables.Takes other c) ∧
      tables.Takes edge c ∧ edge.target = target

/-- The automaton runs over a text from a state to another. -/
inductive Runs (tables : Tables) : UInt16 → List Char → UInt16 → Prop where
  | nil (state : UInt16) : Runs tables state [] state
  | cons {state middle last : UInt16} {c : Char} {text : List Char}
    (hmoves : tables.Moves state c middle) (hruns : Runs tables middle text last) :
    Runs tables state (c :: text) last

/-- The run over a text from a state ends in a state that accepts a symbol. -/
def Accepts (tables : Tables) (state : UInt16) (text : List Char) (symbol : UInt16) : Prop :=
  ∃ last row, tables.Runs state text last ∧ tables.dfaStates[last.toNat]? = some row ∧
    row.accept = some symbol

/-- The longest beginning of a text that is accepted from a state, and is not empty. -/
structure Longest (tables : Tables) (state : UInt16) (text found : List Char) (symbol : UInt16) :
    Prop where
  begins : found <+: text
  ne_nil : found ≠ []
  accepts : tables.Accepts state found symbol
  longest : ∀ other otherSymbol, other <+: text → tables.Accepts state other otherSymbol →
    other.length ≤ found.length

/-- No beginning of a text is accepted from a state, unless it is empty. -/
def Unmatched (tables : Tables) (state : UInt16) (text : List Char) : Prop :=
  ∀ found symbol, found <+: text → found ≠ [] → ¬tables.Accepts state found symbol

variable {tables : Tables} {state target symbol : UInt16} {c : Char}
  {text found : List Char}

theorem takes_iff {edge : DfaEdge} :
    (match tables.characterSets[edge.set.toNat]? with
      | some set => set.contains c
      | none => false) = true ↔ tables.Takes edge c := by
  rw [Takes]
  cases tables.characterSets[edge.set.toNat]? with
  | none => simp
  | some set => simp [CharacterSet.contains, CharacterRange.contains]

/-- The automaton moves along the first edge that takes a character. -/
theorem nextState?_eq_some : tables.nextState? state c = some target ↔
    tables.Moves state c target := by
  show (tables.dfaStates[state.toNat]?.bind fun row => (row.edges.find? fun edge =>
    match tables.characterSets[edge.set.toNat]? with
    | some set => set.contains c
    | none => false).bind fun edge => some edge.target) = some target ↔ _
  simp only [Option.bind_eq_some_iff, List.find?_eq_some_iff_append, takes_iff, Bool.not_eq_true',
    Option.some.injEq]
  constructor
  · rintro ⟨row, hrow, edge, ⟨htakes, before, after, hedges, hbefore⟩, htarget⟩
    refine ⟨row, before, edge, after, hrow, hedges, fun other hother htaken => ?_, htakes, htarget⟩
    have hfalse := hbefore other hother
    rw [takes_iff.2 htaken] at hfalse
    cases hfalse
  · rintro ⟨row, before, edge, after, hrow, hedges, hbefore, htakes, htarget⟩
    refine ⟨row, hrow, edge, ⟨htakes, before, after, hedges, fun other hother => ?_⟩, htarget⟩
    exact Bool.eq_false_iff.2 fun htaken => hbefore other hother (takes_iff.1 htaken)

theorem accepts_nil : tables.Accepts state [] symbol ↔ tables.accepted? state = some symbol := by
  rw [accepted?, Option.bind_eq_some_iff]
  constructor
  · rintro ⟨last, row, hruns, hrow, haccept⟩
    cases hruns
    exact ⟨row, hrow, haccept⟩
  · rintro ⟨row, hrow, haccept⟩
    exact ⟨state, row, .nil state, hrow, haccept⟩

theorem accepts_cons : tables.Accepts state (c :: text) symbol ↔
    ∃ middle, tables.nextState? state c = some middle ∧ tables.Accepts middle text symbol := by
  constructor
  · rintro ⟨last, row, hruns, hlast⟩
    cases hruns with
    | cons hmoves hruns => exact ⟨_, nextState?_eq_some.2 hmoves, last, row, hruns, hlast⟩
  · rintro ⟨middle, hmiddle, last, row, hruns, hlast⟩
    exact ⟨last, row, .cons (nextState?_eq_some.1 hmiddle) hruns, hlast⟩

/-- A text is accepted as one symbol at most. -/
theorem Accepts.symbol_eq {other : UInt16} (h : tables.Accepts state text symbol)
    (hother : tables.Accepts state text other) : symbol = other := by
  induction text generalizing state with
  | nil => exact Option.some.inj ((accepts_nil.1 h).symm.trans (accepts_nil.1 hother))
  | cons c text ih =>
    obtain ⟨middle, hmiddle, h⟩ := accepts_cons.1 h
    obtain ⟨same, hsame, hother⟩ := accepts_cons.1 hother
    rw [hmiddle] at hsame
    cases hsame
    exact ih h hother

theorem Longest.eq {other : List Char} {otherSymbol : UInt16}
    (h : tables.Longest state text found symbol)
    (hother : tables.Longest state text other otherSymbol) :
    found = other ∧ symbol = otherSymbol := by
  have hlength : found.length = other.length :=
    Nat.le_antisymm (hother.longest _ _ h.begins h.accepts)
      (h.longest _ _ hother.begins hother.accepts)
  have hfound : found = other :=
    (List.prefix_of_prefix_length_le h.begins hother.begins (Nat.le_of_eq hlength)).eq_of_length
      hlength
  subst hfound
  exact ⟨rfl, h.accepts.symbol_eq hother.accepts⟩

/-! ## What is found behind a character -/

/-- A beginning of a text that is not empty starts with the first character. -/
theorem exists_cons_of_begins {rest : List Char} (hbegins : found <+: c :: rest)
    (hne : found ≠ []) : ∃ behind, found = c :: behind ∧ behind <+: rest := by
  rcases List.prefix_cons_iff.1 hbegins with hnil | hcons
  · exact absurd hnil hne
  · exact hcons

theorem unmatched_of_stuck {rest : List Char} (h : tables.nextState? state c = none) :
    tables.Unmatched state (c :: rest) := by
  intro found symbol hbegins hne haccepts
  obtain ⟨behind, rfl, -⟩ := exists_cons_of_begins hbegins hne
  obtain ⟨middle, hmiddle, -⟩ := accepts_cons.1 haccepts
  rw [h] at hmiddle
  cases hmiddle

section

variable {middle : UInt16} {rest : List Char} (hmoves : tables.nextState? state c = some middle)

include hmoves

theorem accepts_behind : tables.Accepts state (c :: text) symbol ↔
    tables.Accepts middle text symbol := by
  rw [accepts_cons]
  constructor
  · rintro ⟨other, hother, haccepts⟩
    rw [hmoves] at hother
    cases hother
    exact haccepts
  · exact fun haccepts => ⟨middle, hmoves, haccepts⟩

theorem Longest.cons (h : tables.Longest middle rest found symbol) :
    tables.Longest state (c :: rest) (c :: found) symbol where
  begins := List.cons_prefix_cons.2 ⟨rfl, h.begins⟩
  ne_nil := List.cons_ne_nil c found
  accepts := (accepts_behind hmoves).2 h.accepts
  longest := by
    intro other otherSymbol hbegins haccepts
    by_cases hne : other = []
    · rw [hne]
      exact Nat.zero_le _
    · obtain ⟨behind, rfl, hbehind⟩ := exists_cons_of_begins hbegins hne
      exact Nat.succ_le_succ (h.longest _ _ hbehind ((accepts_behind hmoves).1 haccepts))

/-- Behind a character with which nothing more matches, the character alone may match. -/
theorem longest_singleton (h : tables.Unmatched middle rest)
    (haccepted : tables.accepted? middle = some symbol) :
    tables.Longest state (c :: rest) [c] symbol where
  begins := List.cons_prefix_cons.2 ⟨rfl, List.nil_prefix⟩
  ne_nil := List.cons_ne_nil c []
  accepts := (accepts_behind hmoves).2 (accepts_nil.2 haccepted)
  longest := by
    intro other otherSymbol hbegins haccepts
    by_cases hne : other = []
    · rw [hne]
      exact Nat.zero_le _
    · obtain ⟨behind, rfl, hbehind⟩ := exists_cons_of_begins hbegins hne
      cases behind with
      | nil => exact Nat.le_refl _
      | cons next behind =>
        exact absurd ((accepts_behind hmoves).1 haccepts)
          (h _ _ hbehind (List.cons_ne_nil next behind))

theorem Unmatched.cons (h : tables.Unmatched middle rest)
    (haccepted : tables.accepted? middle = none) : tables.Unmatched state (c :: rest) := by
  intro found symbol hbegins hne haccepts
  obtain ⟨behind, rfl, hbehind⟩ := exists_cons_of_begins hbegins hne
  rw [accepts_behind hmoves] at haccepts
  by_cases hmore : behind = []
  · rw [hmore, accepts_nil, haccepted] at haccepts
    cases haccepts
  · exact h _ _ hbehind hmore haccepts

end

/-- What is found is the longest match behind a state, or what was found before if nothing
    matches there. -/
theorem scan_longest (tables : Tables) (text : List Char) (state : UInt16) (taken : Nat)
    (best : Option (UInt16 × Nat)) :
    (∃ found symbol, tables.Longest state text found symbol ∧
        (scan tables state taken best text).1 = some (symbol, taken + found.length)) ∨
      tables.Unmatched state text ∧ (scan tables state taken best text).1 = best := by
  induction text generalizing state taken best with
  | nil => exact .inr ⟨fun found _ hbegins hne => absurd (List.prefix_nil.1 hbegins) hne, rfl⟩
  | cons c rest ih =>
    rw [scan]
    cases hmoves : tables.nextState? state c with
    | none => exact .inr ⟨unmatched_of_stuck hmoves, rfl⟩
    | some middle =>
      have hlength : ∀ found : List Char,
          taken + 1 + found.length = taken + (c :: found).length := by
        intro found
        rw [List.length_cons, Nat.add_assoc, Nat.add_comm 1]
      simp only
      -- the last match is one further on, the one at this character, or an earlier one
      cases haccepted : tables.accepted? middle with
      | some accepted =>
        simp only
        rcases ih middle (taken + 1) (some (accepted, taken + 1)) with
          ⟨found, symbol, hlongest, hscan⟩ | ⟨hunmatched, hscan⟩
        · rw [hlength] at hscan
          exact .inl ⟨c :: found, symbol, hlongest.cons hmoves, hscan⟩
        · exact .inl ⟨[c], accepted, longest_singleton hmoves hunmatched haccepted, hscan⟩
      | none =>
        simp only
        rcases ih middle (taken + 1) best with
          ⟨found, symbol, hlongest, hscan⟩ | ⟨hunmatched, hscan⟩
        · rw [hlength] at hscan
          exact .inl ⟨c :: found, symbol, hlongest.cons hmoves, hscan⟩
        · exact .inr ⟨hunmatched.cons hmoves haccepted, hscan⟩

end Tables

/-! ## Tokens of the automaton -/

/-- The token at the start of a text: the end of the input, the longest match, or a character
    where nothing matches. -/
inductive Grammar.Recognizes (grammar : Grammar) : List Char → Stretch → Prop where
  | endOfInput : Recognizes grammar [] ⟨grammar.endSymbol, []⟩
  | longest {text found : List Char} {symbol : UInt16}
    (h : grammar.Longest grammar.dfaInitial text found symbol) :
    Recognizes grammar text ⟨symbol, found⟩
  | unmatched {c : Char} {rest : List Char}
    (h : grammar.Unmatched grammar.dfaInitial (c :: rest)) :
    Recognizes grammar (c :: rest) ⟨grammar.errorSymbol, [c]⟩

theorem recognizes_recognize (grammar : Grammar) (text : List Char) :
    grammar.Recognizes text (grammar.recognize text).1 := by
  cases text with
  | nil => exact .endOfInput
  | cons c rest =>
    rcases Tables.scan_longest grammar.toTables (c :: rest) grammar.dfaInitial 0 none with
      ⟨found, symbol, hlongest, hscan⟩ | ⟨hunmatched, hscan⟩
    · have hfound : (c :: rest).take (0 + found.length) = found := by
        rw [Nat.zero_add, ← List.prefix_iff_eq_take.1 hlongest.begins]
      rw [Grammar.recognize]
      split
      · next heq =>
        rw [heq] at hscan
        cases hscan
        rw [hfound]
        exact .longest hlongest
      · next heq =>
        rw [heq] at hscan
        cases hscan
    · rw [Grammar.recognize]
      split
      · next heq =>
        rw [heq] at hscan
        cases hscan
      · exact .unmatched hunmatched

/-- There is one token at the start of a text. -/
theorem Grammar.Recognizes.eq {grammar : Grammar} {text : List Char} {stretch other : Stretch}
    (h : grammar.Recognizes text stretch) (hother : grammar.Recognizes text other) :
    stretch = other := by
  cases h with
  | endOfInput =>
    cases hother with
    | endOfInput => rfl
    | longest hlongest => exact absurd (List.prefix_nil.1 hlongest.begins) hlongest.ne_nil
  | longest hlongest =>
    cases hother with
    | endOfInput => exact absurd (List.prefix_nil.1 hlongest.begins) hlongest.ne_nil
    | longest hother =>
      obtain ⟨rfl, rfl⟩ := hlongest.eq hother
      rfl
    | unmatched hunmatched =>
      exact absurd hlongest.accepts (hunmatched _ _ hlongest.begins hlongest.ne_nil)
  | unmatched hunmatched =>
    cases hother with
    | longest hlongest =>
      exact absurd hlongest.accepts (hunmatched _ _ hlongest.begins hlongest.ne_nil)
    | unmatched => rfl

/-- The token that a lexer finds next, wherever it is and however much it has drawn from its
    source, is the one at the start of the rest of the text, and begins where the lexer is. -/
theorem Lexer.nextRaw_eq_iff (lexer : Lexer) (grammar : Grammar) (token : Token) :
    (lexer.nextRaw grammar).1 = token ↔ ∃ stretch, grammar.Recognizes lexer.rest stretch ∧
      token = .ofText stretch.symbol stretch.text lexer.position := by
  have hnext : (lexer.nextRaw grammar).1 = .ofText (grammar.recognize lexer.rest).1.symbol
    (grammar.recognize lexer.rest).1.text lexer.position := rfl
  rw [hnext]
  constructor
  · rintro rfl
    exact ⟨_, recognizes_recognize grammar lexer.rest, rfl⟩
  · rintro ⟨stretch, hstretch, rfl⟩
    rw [hstretch.eq (recognizes_recognize grammar lexer.rest)]

end GoldTables

import GoldTables.Lexer.Basic

/-!
# Longest match

The lexer's automaton runs over the rest of the text from its initial state,
and the longest text on which it has reached an accepting state is a token of
the accepted symbol. If there is none, the next character is a token of the
error symbol; at the end of the text there is an empty token of the end symbol.

Only as many characters are drawn from the source as the automaton looks at:
the ones it takes, and the one that it cannot take.

Results:
* `scan_bounds`: a match is not empty, and not longer than what was looked at.
* `recognize_length`: what is recognized is no longer than what was looked at, and it is empty
  only at the end of the text.
-/

namespace GoldTables

/-- The state that an automaton state goes to on a character: `next_raw_token` follows the first
    edge that takes it. -/
def Tables.nextState? (tables : Tables) (state : UInt16) (c : Char) : Option UInt16 := do
  let row ← tables.dfaStates[state.toNat]?
  let edge ← row.edges.find? fun edge =>
    match tables.characterSets[edge.set.toNat]? with
    | some set => set.contains c
    | none => false
  return edge.target

/-- The symbol that an automaton state accepts. -/
def Tables.accepted? (tables : Tables) (state : UInt16) : Option UInt16 :=
  tables.dfaStates[state.toNat]?.bind DfaState.accept

/-- Runs the automaton (the loop of `next_raw_token`) from a state in which `taken` characters were
    taken and `best` is the longest match: the longest match in the end, and the number of
    characters looked at. -/
def scan (tables : Tables) (state : UInt16) (taken : Nat) (best : Option (UInt16 × Nat)) :
    List Char → Option (UInt16 × Nat) × Nat
  | [] => (best, taken)
  | c :: rest =>
    match tables.nextState? state c with
    | none => (best, taken + 1)
    | some target =>
      let best :=
        match tables.accepted? target with
        | some symbol => some (symbol, taken + 1)
        | none => best
      scan tables target (taken + 1) best rest

theorem scan_bounds (tables : Tables) (text : List Char) (state : UInt16) (taken : Nat)
    (best : Option (UInt16 × Nat)) (hbest : ∀ s n, best = some (s, n) → 0 < n ∧ n ≤ taken) :
    taken ≤ (scan tables state taken best text).2 ∧
      ∀ s n, (scan tables state taken best text).1 = some (s, n) →
        0 < n ∧ n ≤ (scan tables state taken best text).2 := by
  induction text generalizing state taken best with
  | nil => exact ⟨Nat.le_refl _, hbest⟩
  | cons c rest ih =>
    rw [scan]
    split
    · exact ⟨Nat.le_succ _, fun s n h => ⟨(hbest s n h).1, Nat.le_succ_of_le (hbest s n h).2⟩⟩
    · next target _ =>
      have hnext : ∀ s n,
          (match tables.accepted? target with
            | some symbol => some (symbol, taken + 1)
            | none => best) = some (s, n) → 0 < n ∧ n ≤ taken + 1 := by
        intro s n h
        split at h
        · cases h
          exact ⟨Nat.succ_pos _, Nat.le_refl _⟩
        · exact ⟨(hbest s n h).1, Nat.le_succ_of_le (hbest s n h).2⟩
      obtain ⟨hle, hmatch⟩ := ih _ _ _ hnext
      exact ⟨Nat.le_trans (Nat.le_succ _) hle, hmatch⟩

/-- The number of characters looked at is positive unless there are none. -/
theorem scan_looks (tables : Tables) (c : Char) (rest : List Char) (state : UInt16) :
    0 < (scan tables state 0 none (c :: rest)).2 := by
  rw [scan]
  split
  · exact Nat.succ_pos _
  · next target _ =>
    refine Nat.lt_of_lt_of_le (Nat.succ_pos 0) (scan_bounds _ _ _ _ _ ?_).1
    intro s n h
    split at h
    · cases h
      exact ⟨Nat.succ_pos _, Nat.le_refl _⟩
    · cases h

/-- A stretch of text and its symbol. -/
structure Stretch where
  symbol : UInt16
  text : List Char
  deriving DecidableEq

/-- The token that `next_raw_token` finds at the start of a text, and the number of characters
    looked at. -/
def Grammar.recognize (grammar : Grammar) : List Char → Stretch × Nat
  | [] => (⟨grammar.endSymbol, []⟩, 0)
  | c :: rest =>
    match scan grammar.toTables grammar.dfaInitial 0 none (c :: rest) with
    | (some (symbol, length), looked) => (⟨symbol, (c :: rest).take length⟩, looked)
    | (none, looked) => (⟨grammar.errorSymbol, [c]⟩, looked)

theorem recognize_length (grammar : Grammar) (text : List Char) :
    (grammar.recognize text).1.text.length ≤ (grammar.recognize text).2 ∧
      (text ≠ [] → 0 < (grammar.recognize text).1.text.length) := by
  cases text with
  | nil => simp [Grammar.recognize]
  | cons c rest =>
    have hbounds := scan_bounds grammar.toTables (c :: rest) grammar.dfaInitial 0 none (by simp)
    have hlooks := scan_looks grammar.toTables c rest grammar.dfaInitial
    rw [Grammar.recognize]
    split
    · next symbol length looked hscan =>
      rw [hscan] at hbounds
      obtain ⟨hpos, hle⟩ := hbounds.2 symbol length rfl
      simp only [List.length_take, List.length_cons]
      omega
    · next looked hscan =>
      rw [hscan] at hlooks
      exact ⟨hlooks, fun _ => Nat.one_pos⟩

namespace Lexer

/-- The next stretch of text, without consuming it, and the lexer that has looked at it. -/
def peek (lexer : Lexer) (grammar : Grammar) : Stretch × Lexer :=
  let (stretch, looked) := grammar.recognize lexer.rest
  (stretch, lexer.draw looked)

theorem peek_rest (lexer : Lexer) (grammar : Grammar) :
    (lexer.peek grammar).2.rest = lexer.rest := rfl

theorem peek_groups (lexer : Lexer) (grammar : Grammar) :
    (lexer.peek grammar).2.groups = lexer.groups := rfl

theorem length_peek_le (lexer : Lexer) (grammar : Grammar) :
    (lexer.peek grammar).1.text.length ≤ (lexer.peek grammar).2.buffered :=
  Nat.le_trans (recognize_length grammar lexer.rest).1 (Nat.le_max_right _ _)

/-- The next token of the automaton, without consuming it (`next_raw_token`). -/
def nextRaw (lexer : Lexer) (grammar : Grammar) : Token × Lexer :=
  let (stretch, lexer) := lexer.peek grammar
  (.ofText stretch.symbol stretch.text lexer.position, lexer)

end Lexer

end GoldTables

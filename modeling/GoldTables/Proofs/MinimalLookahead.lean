import GoldTables.Proofs.LongestMatch
import GoldTables.Proofs.TokenProgress

/-!
# No more is drawn than is looked at

To find a token the automaton runs over the text as far as it can, and it does
not know that it can go no further before it has seen the next character. So
it looks at one character more than its longest run takes, if there is one,
although the token may be much shorter than the run. These are the characters
that a lexer draws from its source, less those that it has drawn before; it
consumes none of them, so that the same token is found again without drawing.

Results:
* `scan_looked`: what is looked at behind a state is the longest run and one character more.
* `Lexer.nextRaw_minimal`: finding a token draws this much, and changes nothing else.
-/

namespace GoldTables

/-! ## The longest run -/

/-- The longest beginning of a text that the automaton runs over from a state, whether or not it
    accepts there. -/
structure Tables.LongestRun (tables : Tables) (state : UInt16) (text run : List Char) : Prop where
  begins : run <+: text
  runs : ∃ last, tables.Runs state run last
  longest : ∀ other last, other <+: text → tables.Runs state other last →
    other.length ≤ run.length

namespace Tables

variable {tables : Tables} {state middle : UInt16} {c : Char} {rest run : List Char}

theorem longestRun_nil : tables.LongestRun state [] [] where
  begins := List.nil_prefix
  runs := ⟨state, .nil state⟩
  longest _ _ hbegins _ := hbegins.length_le

/-- A run that is not empty begins with a move. -/
theorem exists_move_of_runs {last : UInt16} (h : tables.Runs state (c :: run) last) :
    ∃ middle, tables.nextState? state c = some middle ∧ tables.Runs middle run last := by
  cases h with
  | cons hmoves hruns => exact ⟨_, nextState?_eq_some.2 hmoves, hruns⟩

/-- Where the next character cannot be taken the longest run is empty. -/
theorem longestRun_stuck (h : tables.nextState? state c = none) :
    tables.LongestRun state (c :: rest) [] where
  begins := List.nil_prefix
  runs := ⟨state, .nil state⟩
  longest := by
    intro other last hbegins hruns
    by_cases hne : other = []
    · exact Nat.le_of_eq (congrArg List.length hne)
    · obtain ⟨behind, rfl, -⟩ := exists_cons_of_begins hbegins hne
      obtain ⟨middle, hmiddle, -⟩ := exists_move_of_runs hruns
      rw [h] at hmiddle
      cases hmiddle

/-- Where the next character can be taken the longest run goes on from there. -/
theorem LongestRun.cons (h : tables.LongestRun middle rest run)
    (hmoves : tables.nextState? state c = some middle) :
    tables.LongestRun state (c :: rest) (c :: run) where
  begins := List.cons_prefix_cons.2 ⟨rfl, h.begins⟩
  runs := by
    obtain ⟨last, hruns⟩ := h.runs
    exact ⟨last, .cons (nextState?_eq_some.1 hmoves) hruns⟩
  longest := by
    intro other last hbegins hruns
    by_cases hne : other = []
    · rw [hne]
      exact Nat.zero_le _
    · obtain ⟨behind, rfl, hbehind⟩ := exists_cons_of_begins hbegins hne
      obtain ⟨same, hsame, hruns⟩ := exists_move_of_runs hruns
      rw [hmoves] at hsame
      cases hsame
      exact Nat.succ_le_succ (h.longest behind last hbehind hruns)

end Tables

/-! ## What is looked at -/

/-- Behind a state the automaton looks at the characters of its longest run, and at one more if
    there is one, whatever it has matched on the way. -/
theorem scan_looked (tables : Tables) (text : List Char) (state : UInt16) :
    ∃ run, tables.LongestRun state text run ∧ ∀ taken best,
      (scan tables state taken best text).2 = taken + min text.length (run.length + 1) := by
  induction text generalizing state with
  | nil => exact ⟨[], Tables.longestRun_nil, fun _ _ => rfl⟩
  | cons c rest ih =>
    cases hmoves : tables.nextState? state c with
    | none =>
      refine ⟨[], Tables.longestRun_stuck hmoves, fun taken best => ?_⟩
      simp only [scan, hmoves, List.length_cons, List.length_nil]
      omega
    | some middle =>
      obtain ⟨run, hrun, hlooked⟩ := ih middle
      refine ⟨c :: run, hrun.cons hmoves, fun taken best => ?_⟩
      simp only [scan, hmoves, hlooked, List.length_cons]
      omega

/-- To recognize what is at the start of a text, the automaton looks at its longest run from the
    initial state and at one character more. -/
theorem looked_recognize (grammar : Grammar) (text : List Char) :
    ∃ run, grammar.LongestRun grammar.dfaInitial text run ∧
      (grammar.recognize text).2 = min text.length (run.length + 1) := by
  cases text with
  | nil => exact ⟨[], Tables.longestRun_nil, rfl⟩
  | cons c rest =>
    obtain ⟨run, hrun, hscanned⟩ := scan_looked grammar.toTables (c :: rest) grammar.dfaInitial
    have hlooked := hscanned 0 none
    rw [Nat.zero_add] at hlooked
    refine ⟨run, hrun, ?_⟩
    rw [Grammar.recognize]
    split
    · next heq =>
      rw [heq] at hlooked
      exact hlooked
    · next heq =>
      rw [heq] at hlooked
      exact hlooked

/-! ## What is drawn -/

namespace Lexer

theorem nextRaw_eq (lexer : Lexer) (grammar : Grammar) :
    lexer.nextRaw grammar =
      ((lexer.peek grammar).2.tokenOf (lexer.peek grammar).1, (lexer.peek grammar).2) := rfl

/-- To find the next token keeps the characters that are to be consumed, the position and the open
    groups of every lexer. Finding it once more gives the same token and changes nothing at all.
    Behind it the characters of the automaton's longest run and one more are buffered, as far as
    the text goes, or as many as were buffered before if these were more; only the difference is
    drawn from the source. -/
theorem nextRaw_minimal (lexer : Lexer) (grammar : Grammar) :
    (lexer.nextRaw grammar).2.rest = lexer.rest ∧
      (lexer.nextRaw grammar).2.position = lexer.position ∧
      (lexer.nextRaw grammar).2.groups = lexer.groups ∧
      (lexer.nextRaw grammar).2.nextRaw grammar = lexer.nextRaw grammar ∧
      ∃ run, grammar.LongestRun grammar.dfaInitial lexer.rest run ∧
        (lexer.nextRaw grammar).2.buffered =
          max lexer.buffered (min lexer.rest.length (run.length + 1)) ∧
        (lexer.nextRaw grammar).2.drawn =
          lexer.drawn + ((lexer.nextRaw grammar).2.buffered - lexer.buffered) := by
  refine ⟨rfl, rfl, rfl, ?_, ?_⟩
  · rw [nextRaw_eq lexer grammar, nextRaw_eq, peek_peek]
  · obtain ⟨run, hrun, hlooked⟩ := looked_recognize grammar lexer.rest
    have hbuffered : (lexer.nextRaw grammar).2.buffered =
      max lexer.buffered (grammar.recognize lexer.rest).2 := rfl
    have hdrawn : (lexer.nextRaw grammar).2.drawn =
      lexer.drawn + ((grammar.recognize lexer.rest).2 - lexer.buffered) := rfl
    refine ⟨run, hrun, by rw [hbuffered, hlooked], ?_⟩
    rw [hdrawn, hbuffered]
    omega

end Lexer

end GoldTables

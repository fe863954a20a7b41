import GoldTables.Proofs.NestedGroups
import GoldTables.Proofs.StepRuns

/-!
# How long the loops run

A call of `parse` takes steps until there is a message, and the lexer takes
steps through the groups until there is a token. While chain productions are
not trimmed, a silent step of the parser uses up a token that waits. A step of
the lexer without a token consumes characters or closes a group: opening a
group costs a character, so that two for each character and one for each open
group pay for all steps. At the end of the text nothing is left to pay with,
but there the symbol of the end is a token.

Results:
* `length_input_lt_of_untrimmed`: without trimming, a silent step uses up a token that waits.
* `parseWithin_of_input`: a message comes within one step for each token that waits, and one more.
* `parse_untrimmed`: both bounds.
-/

namespace GoldTables.Parser

variable {grammar : Grammar} {parser next : Parser}

/-! ## Steps up to a message -/

theorem Step.trim_eq {message : Option Message} (h : Step grammar parser message next) :
    next.trim = parser.trim := by
  cases h <;> rfl

/-- Without trimming, every silent step uses up a token that waits. -/
theorem length_input_lt_of_untrimmed (hloaded : grammar.Loaded) (htrim : parser.trim = false)
    (hstep : parser.step grammar = (none, next)) : next.input.length < parser.input.length := by
  cases step_eq_iff.1 hstep with
  | stuck _ _ hnever =>
    rw [hloaded.nextToken?_eq] at hnever
    cases hnever
  | noise _ hinput =>
    rw [hinput]
    exact Nat.lt_succ_self _
  | shift h =>
    rw [h.input]
    exact Nat.lt_succ_self _
  | rename _ hrenames =>
    rw [htrim] at hrenames
    cases hrenames

/-- Without trimming, a message comes within more steps than there are tokens that wait. -/
theorem parseWithin_of_input (hloaded : grammar.Loaded) {n : Nat} (htrim : parser.trim = false)
    (hn : parser.input.length < n) : ∃ found, parseWithin grammar n parser = some found := by
  induction n generalizing parser with
  | zero => omega
  | succ n ih =>
    cases hstep : parser.step grammar with
    | mk message next =>
      cases message with
      | some message => exact ⟨_, parseWithin_message hstep⟩
      | none =>
        have hless := length_input_lt_of_untrimmed hloaded htrim hstep
        have hkept : next.trim = false := (step_eq_iff.1 hstep).trim_eq.trans htrim
        rw [parseWithin_silent hstep]
        exact ih hkept (by omega)

/-- Without trimming, a call of `parse` comes to a message, whatever was done with the parser
    before: it takes at most one step for each token that waits, and one more. Any lexer comes to
    its next token: it takes at most two steps for each character that is not consumed, one for each
    open group, and one more. -/
theorem parse_untrimmed {bytes : List UInt8} (h : Grammar.ofBytes bytes = .ok grammar)
    (parser : Parser) (htrim : parser.trim = false) :
    (∃ message next,
        parseWithin grammar (parser.input.length + 1) parser = some (message, next) ∧
          parser.parse grammar = some (message, next)) ∧
      ∀ lexer : Lexer,
        Lexer.nextTokenWithin grammar (2 * lexer.rest.length + lexer.depth + 1) lexer =
          some (lexer.nextToken grammar) := by
  have hloaded := Grammar.loaded_of_ofBytes h
  constructor
  · obtain ⟨⟨message, next⟩, hfound⟩ : ∃ found,
        parseWithin grammar (parser.input.length + 1) parser = some found :=
      parseWithin_of_input hloaded htrim (Nat.lt_succ_self _)
    exact ⟨message, next, hfound, parse_of_parseWithin hfound⟩
  · intro lexer
    exact hloaded.nextTokenWithin_of_work (Nat.lt_succ_self _)

/-- Two comments wait to be dropped, in front of a comment that is not closed: fewer steps do not
    suffice for the message. -/
theorem parse_untrimmed_nestedFile :
    ∃ grammar parser next, Grammar.ofBytes nestedFile = .ok grammar ∧
      parser.trim = false ∧ parser.input.length = 2 ∧
      parseWithin grammar 3 parser = some (.tokenRead, next) ∧
      parser.parse grammar = some (.tokenRead, next) ∧ parseWithin grammar 2 parser = none ∧
      Lexer.nextTokenWithin grammar 5 (.openText "(x") =
        some ((Lexer.openText "(x").nextToken grammar) := by
  have hpasses : Grammar.passes nestedFile (fun grammar =>
      let comment : Token := ⟨4, .text "()", .start, 0⟩
      let parser := (((start grammar).openText grammar "(x").enqueue comment).enqueue comment
      (parseWithin grammar 2 parser).isNone &&
        (parseWithin grammar 3 parser).any fun found => found.1 = .tokenRead) = true := by
    decide +kernel
  obtain ⟨grammar, hgrammar, htest⟩ := Grammar.exists_of_passes hpasses
  simp only [Bool.and_eq_true, Option.isNone_iff_eq_none, Option.any_eq_true,
    decide_eq_true_eq] at htest
  obtain ⟨hfew, ⟨reported, last⟩, hreported, rfl⟩ := htest
  obtain ⟨⟨message, next, hwithin, hparse⟩, hlexer⟩ := parse_untrimmed hgrammar
    ((((start grammar).openText grammar "(x").enqueue ⟨4, .text "()", .start, 0⟩).enqueue
      ⟨4, .text "()", .start, 0⟩) rfl
  cases hwithin.symm.trans hreported
  exact ⟨grammar, _, last, hgrammar, rfl, rfl, hwithin, hparse, hfew, hlexer (.openText "(x")⟩

end GoldTables.Parser

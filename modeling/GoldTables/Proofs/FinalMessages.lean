import GoldTables.Proofs.NestedGroups
import GoldTables.Proofs.ParsedTokens

/-!
# Final messages are repeated

Where a parse has ended, the next call finds the same lookahead in front of
the same state and takes the step that ended it once more. The step changes
nothing then, so that it can be repeated for ever. It does not matter what was
done with the parser before: tokens may have been put into its queue, and
groups may be open.

An internal error is left out, since it may have taken tokens from the stack.

Results:
* `Step.repeats`: a step that ends a parse is taken again, and changes nothing.
* `calls_of_isFinal`: any number of calls report the final message again.
-/

namespace GoldTables.Parser

variable {grammar : Grammar} {parser next : Parser} {message : Message}

/-- A step that ends a parse is taken again by the parser behind it, and changes nothing. -/
theorem Step.repeats (h : Step grammar parser (some message) next)
    (hfinal : message.isFinal = true) (hno : message ≠ .internalError) :
    Step grammar next (some message) next := by
  cases h with
  | notLoaded hclosed => exact .notLoaded hclosed
  | groupError hopened hinput hgroup => exact .groupError hopened hinput hgroup
  | lexicalError hopened hinput hgroup hkind => exact .lexicalError hopened hinput hgroup hkind
  | syntaxError hhandles haction =>
    exact .syntaxError ⟨hhandles.opened, hhandles.input, hhandles.outside, hhandles.kind⟩ haction
  | accept hhandles haction =>
    exact .accept ⟨hhandles.opened, hhandles.input, hhandles.outside, hhandles.kind⟩ haction
  | tokenRead => cases hfinal
  | reduction => cases hfinal
  | unknownSymbol => exact absurd rfl hno
  | strayGoto => exact absurd rfl hno
  | unknownProduction => exact absurd rfl hno
  | underflow => exact absurd rfl hno
  | renameLost => exact absurd rfl hno
  | reductionLost => exact absurd rfl hno

/-- What a call repeats without a change, any number of calls repeat. -/
theorem calls_replicate (h : parser.parse grammar = some (message, parser)) (n : ℕ) :
    calls grammar n parser = some (List.replicate n message, parser) := by
  induction n with
  | zero => rfl
  | succ n ih =>
    rw [calls_succ ih h, List.replicate_succ']

/-- When `parse` reports a final message other than an internal error, the next call reports it
    again, and so does any number of calls. The lexer, the stack and the state, the tokens that
    wait, the expected symbols and the position stay as the first call left them. -/
theorem calls_of_isFinal (hparse : parser.parse grammar = some (message, next))
    (hfinal : message.isFinal = true) (hno : message ≠ .internalError) :
    next.parse grammar = some (message, next) ∧
      ∀ n, calls grammar n next = some (List.replicate n message, next) := by
  obtain ⟨last, -, hlast⟩ := parse_eq_some_iff.1 hparse
  have hrepeats := (step_eq_iff.1 hlast).repeats hfinal hno
  have hagain : next.parse grammar = some (message, next) := parse_of_message hrepeats.step_eq
  exact ⟨hagain, calls_replicate hagain⟩

/-- The end of the input was read inside a comment, and a token was put behind it. -/
theorem calls_of_isFinal_nestedFile :
    ∃ grammar messages current next, Grammar.ofBytes nestedFile = .ok grammar ∧
      Calls grammar ((start grammar).openText grammar "(x") messages current ∧
      (current.enqueue ⟨9, .text "?", .start, 0⟩).parse grammar = some (.groupError, next) ∧
      next.input.length = 2 ∧ next.lexer.depth = 1 ∧
      ∀ n, calls grammar n next = some (List.replicate n .groupError, next) := by
  have hpasses : Grammar.passes nestedFile (fun grammar =>
      (calls grammar 1 ((start grammar).openText grammar "(x")).any fun run =>
        ((run.2.enqueue ⟨9, .text "?", .start, 0⟩).parse grammar).any fun found =>
          found.1 = .groupError && found.2.input.length = 2 && found.2.lexer.depth = 1) = true := by
    decide +kernel
  obtain ⟨grammar, hgrammar, htest⟩ := Grammar.exists_of_passes hpasses
  simp only [Bool.and_eq_true, Option.any_eq_true, decide_eq_true_eq] at htest
  obtain ⟨⟨messages, current⟩, hrun, ⟨message, next⟩, hparse, ⟨rfl, hwaiting⟩, hdepth⟩ := htest
  exact ⟨grammar, messages, current, next, hgrammar, calls_iff.2 ⟨1, hrun⟩, hparse, hwaiting,
    hdepth, (calls_of_isFinal hparse rfl nofun).2⟩

end GoldTables.Parser

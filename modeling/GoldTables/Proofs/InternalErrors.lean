import GoldTables.Proofs.ParseSoundness

/-!
# What is left behind an internal error

A step that ends in an internal error has looked at its lookahead and done
nothing else, so that the next call of `parse` meets the same error, unless
it took the body of a production from the stack before it found that the
exposed state does not go on with the head. Then the body is lost, and the next
call applies the same production to the rest of the stack.

Results:
* `Step.internalError_cases`: an internal error changes nothing but the position, or loses a body.
* `parse_internalError`: when a call that reports an internal error is repeated by the next one.
* `parse_internalError_lostFile`: behind a body that was lost, a reduction may succeed.
-/

namespace GoldTables.Parser

variable {grammar : Grammar} {parser next : Parser} {lookahead : Token} {rest : List Token}
  {index : UInt16} {production : Production}

/-- The parser is to apply a production with a body, and the state below does not go on with its
    head. -/
structure LosesBody (grammar : Grammar) (parser : Parser) (lookahead : Token) (rest : List Token)
    (index : UInt16) (production : Production) : Prop where
  reduces : Reduces grammar parser lookahead rest index production
  nonempty : production.body ≠ []
  stuck : ∃ exposed, parser.stack[production.body.length]? = some exposed ∧
    grammar.goto? exposed.state production.head = none

/-- The parser without the tokens of the body. -/
def withoutBody (parser : Parser) (lookahead : Token) (production : Production) : Parser :=
  { parser.lookAt lookahead with stack := parser.stack.drop production.body.length }

/-! ## Steps -/

/-- To look at the lookahead once more changes nothing. -/
theorem step_lookAt (hopened : parser.opened = true) (hinput : parser.input = lookahead :: rest) :
    (parser.lookAt lookahead).step grammar = parser.step grammar := by
  obtain ⟨lexer, opened, lrState, stack, input, expected, position, trim⟩ := parser
  cases hopened
  cases hinput
  rfl

theorem LosesBody.step_eq (h : LosesBody grammar parser lookahead rest index production) :
    parser.step grammar = (some .internalError, parser.withoutBody lookahead production) := by
  obtain ⟨exposed, hexposed, hgoto⟩ := h.stuck
  obtain ⟨children, below, hstack, hlength⟩ := exists_children hexposed
  have hdrop : parser.stack.drop production.body.length = exposed :: below := by
    rw [hstack, ← hlength, ← List.length_reverse, List.drop_left]
  rw [withoutBody, hdrop]
  exact (h.reduces.step_lost hstack hlength hgoto).step_eq

/-- A body that is lost leaves a smaller stack. -/
theorem LosesBody.stack_ne (h : LosesBody grammar parser lookahead rest index production) :
    (parser.withoutBody lookahead production).stack ≠ parser.stack := by
  obtain ⟨exposed, hexposed, -⟩ := h.stuck
  have hlt := (List.getElem?_eq_some_iff.1 hexposed).1
  have hpos := List.length_pos_iff.2 h.nonempty
  intro heq
  have hlength := congrArg List.length heq
  simp only [withoutBody, List.length_drop] at hlength
  omega

/-- Behind a body that was lost the same production is to be applied. -/
theorem LosesBody.reduces_withoutBody
    (h : LosesBody grammar parser lookahead rest index production) :
    Reduces grammar (parser.withoutBody lookahead production) lookahead rest index production :=
  ⟨⟨h.reduces.opened, h.reduces.input, h.reduces.outside, h.reduces.kind⟩, h.reduces.action,
    h.reduces.production⟩

/-- An internal error changes nothing but the position, or loses a body. -/
theorem Step.internalError_cases (h : Step grammar parser (some .internalError) next) :
    parser.opened = true ∧ ∃ lookahead rest, parser.input = lookahead :: rest ∧
      (next = parser.lookAt lookahead ∨
        ∃ index production, LosesBody grammar parser lookahead rest index production) := by
  cases h with
  | unknownSymbol hopened hinput => exact ⟨hopened, _, _, hinput, .inl rfl⟩
  | strayGoto h => exact ⟨h.opened, _, _, h.input, .inl rfl⟩
  | unknownProduction h => exact ⟨h.opened, _, _, h.input, .inl rfl⟩
  | underflow h => exact ⟨h.opened, _, _, h.input, .inl rfl⟩
  | renameLost h htrim hstack hgoto =>
    have hlength := Tables.length_body_of_isChain (Bool.and_eq_true_iff.1 htrim).2
    refine ⟨h.opened, _, _, h.input, .inr ⟨_, _, h, ?_, _, ?_, hgoto⟩⟩
    · exact List.ne_nil_of_length_eq_add_one hlength
    · rw [hstack, hlength]
      rfl
  | @reductionLost lookahead exposed _ children below _ production h _ hstack hlength hgoto =>
    refine ⟨h.opened, _, _, h.input, ?_⟩
    cases hbody : production.body with
    | nil =>
      -- an empty body is taken from the stack, and the stack stays as it is
      rw [hbody] at hlength
      rw [List.length_eq_zero_iff.1 hlength] at hstack
      left
      rw [show exposed :: below = parser.stack from hstack.symm]
      rfl
    | cons first others =>
      refine .inr ⟨_, _, h, by rw [hbody]; nofun, exposed, ?_, hgoto⟩
      rw [hstack, ← hlength, ← List.length_reverse, List.getElem?_append_right (Nat.le_refl _),
        Nat.sub_self]
      rfl

/-! ## Calls -/

/-- A call that reports an internal error changes nothing in the step that fails but the position,
    and is repeated by the next call, unless a body is lost. The state and the input are kept in
    any case; a body that is lost is missing from the stack, and its production is applied again. -/
theorem parse_internalError (h : parser.parse grammar = some (.internalError, next)) :
    ∃ failing lookahead rest, Silent grammar parser failing ∧
      failing.step grammar = (some .internalError, next) ∧ failing.input = lookahead :: rest ∧
      next.lrState = failing.lrState ∧ next.input = failing.input ∧
      ((∀ index production, ¬ LosesBody grammar failing lookahead rest index production) →
        next = failing.lookAt lookahead ∧ next.parse grammar = some (.internalError, next)) ∧
      ∀ index production, LosesBody grammar failing lookahead rest index production →
        next = failing.withoutBody lookahead production ∧ next.stack ≠ failing.stack ∧
          Reduces grammar next lookahead rest index production := by
  obtain ⟨failing, hsilent, hfails⟩ := parse_eq_some_iff.1 h
  obtain ⟨hopened, lookahead, rest, hinput, hcases⟩ := (step_eq_iff.1 hfails).internalError_cases
  obtain ⟨hstate, hsame⟩ : next.lrState = failing.lrState ∧ next.input = failing.input := by
    rcases hcases with rfl | ⟨index, production, hloses⟩
    · exact ⟨rfl, rfl⟩
    · cases hfails.symm.trans hloses.step_eq
      exact ⟨rfl, rfl⟩
  refine ⟨failing, lookahead, rest, hsilent, hfails, hinput, hstate, hsame, ?_, ?_⟩
  · intro hkept
    rcases hcases with rfl | ⟨index, production, hloses⟩
    · exact ⟨rfl, parse_of_message ((step_lookAt hopened hinput).trans hfails)⟩
    · exact absurd hloses (hkept index production)
  · intro index production hloses
    cases hfails.symm.trans hloses.step_eq
    exact ⟨rfl, hloses.stack_ne, hloses.reduces_withoutBody⟩

/-- Behind a body that was lost the next call does not repeat the internal error. -/
theorem parse_internalError_lostFile :
    ∃ grammar messages current next last, Grammar.ofBytes lostFile = .ok grammar ∧
      Calls grammar ((start grammar).openText grammar "ab") messages current ∧
      current.parse grammar = some (.internalError, next) ∧
      (∃ failing lookahead rest index production, Silent grammar current failing ∧
        failing.step grammar = (some .internalError, next) ∧
        LosesBody grammar failing lookahead rest index production ∧
        next.stack ≠ failing.stack) ∧
      next.parse grammar = some (.reduction, last) := by
  have hpasses : Grammar.passes lostFile (fun grammar =>
      (calls grammar 3 ((start grammar).openText grammar "ab")).any fun run =>
        (run.2.parse grammar).any fun found =>
          found.1 = .internalError && (found.2.parse grammar).any fun second =>
            second.1 = .reduction) = true := by decide +kernel
  obtain ⟨grammar, hgrammar, htest⟩ := Grammar.exists_of_passes hpasses
  simp only [Bool.and_eq_true, Option.any_eq_true, decide_eq_true_eq] at htest
  obtain ⟨⟨messages, current⟩, hrun, ⟨message, next⟩, hparse, rfl, ⟨reported, last⟩, hnext, rfl⟩ :=
    htest
  obtain ⟨failing, lookahead, rest, hsilent, hfails, -, -, -, hkept, hlost⟩ :=
    parse_internalError hparse
  refine ⟨grammar, messages, current, next, last, hgrammar, calls_iff.2 ⟨3, hrun⟩, hparse, ?_,
    hnext⟩
  by_contra hno
  -- if no body were lost, the next call would repeat the error
  have hrepeat := (hkept fun index production hloses => hno ⟨failing, lookahead, rest, index,
    production, hsilent, hfails, hloses, (hlost index production hloses).2.1⟩).2
  rw [hnext] at hrepeat
  cases hrepeat

end GoldTables.Parser

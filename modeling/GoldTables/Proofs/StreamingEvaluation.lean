import GoldTables.Json.Printer
import GoldTables.Parser.Evaluate
import GoldTables.Proofs.LexerRuns
import GoldTables.Proofs.LoadedGrammars
import GoldTables.Proofs.ParsedTokens
import GoldTables.Tree.Evaluate

/-!
# Evaluation while parsing and afterwards

A parser whose reductions are replaced by their values as soon as they are
built takes the same steps as one that builds the whole tree: nothing that
decides about the next step looks at what tokens carry. At every point the one
stack is the other one with values in place of trees, and the children that a
new reduction shows are the values of the children in the tree.

Results:
* `step_evaluated`: the two parsers step together.
* `driveEvaluating_evaluated`: and so do whole runs, with the same messages.
* `evaluate_parseTree`: if there is a tree in the end, then its value is on top of the other stack.
-/

namespace GoldTables

/-! ## Values of tokens -/

namespace Token

variable {value : UInt16 → List Token → Json}

theorem evaluateAll_eq_map (tokens : List Token) :
    evaluateAll value tokens = tokens.map (evaluate value) := by
  induction tokens with
  | nil => rw [evaluateAll, List.map_nil]
  | cons token tokens ih => rw [evaluateAll, ih, List.map_cons]

theorem evaluate_of_isLeaf {token : Token} (h : token.isLeaf = true) :
    token.evaluate value = token := by
  obtain ⟨symbol, payload, position, state⟩ := token
  cases payload with
  | text text => rw [evaluate]
  | value result => rw [evaluate]
  | reduction production children => cases h

/-- The children are evaluated before their parent. -/
theorem evaluate_reduction (symbol production : UInt16) (children : List Token)
    (position : Position) (state : UInt16) :
    evaluate value ⟨symbol, .reduction production children, position, state⟩ =
      ⟨symbol, .value (value production (children.map (evaluate value))), position, state⟩ := by
  rw [evaluate, evaluateAll_eq_map]

/-- What a token carries is replaced, and nothing else. -/
theorem evaluate_eq (token : Token) :
    token.evaluate value = { token with payload := (token.evaluate value).payload } := by
  obtain ⟨symbol, payload, position, state⟩ := token
  cases payload <;> rw [evaluate]

@[simp] theorem evaluate_symbol (token : Token) : (token.evaluate value).symbol = token.symbol := by
  rw [evaluate_eq]

@[simp] theorem evaluate_position (token : Token) :
    (token.evaluate value).position = token.position := by
  rw [evaluate_eq]

@[simp] theorem evaluate_state (token : Token) : (token.evaluate value).state = token.state := by
  rw [evaluate_eq]

/-- A token has its value under any name. -/
theorem evaluate_rename (token : Token) (symbol state : UInt16) :
    evaluate value { token with symbol := symbol, state := state } =
      { token.evaluate value with symbol := symbol, state := state } := by
  obtain ⟨_, payload, position, _⟩ := token
  cases payload <;> rw [evaluate, evaluate]

end Token

namespace Parser

variable {grammar : Grammar} {parser next : Parser} {message : Option Message}
  {value : UInt16 → List Token → Json}

/-! ## The consumer -/

theorem evaluateCurrent_reduction {symbol production : UInt16} {children below : List Token}
    {position : Position} {state : UInt16} {exposed : Token}
    (hstack : parser.stack =
      ⟨symbol, .reduction production children, position, state⟩ :: exposed :: below) :
    (parser.evaluateCurrent value).2 =
      { parser with
        stack := ⟨symbol, .value (value production children), position, state⟩ ::
          exposed :: below } := by
  unfold evaluateCurrent currentReduction? setCurrentValue
  rw [hstack]
  rfl

/-- The parser when the consumer has responded to a message, if there was one. -/
def responded (value : UInt16 → List Token → Json) (message : Option Message) (parser : Parser) :
    Parser :=
  match message with
  | some message => (parser.respond value message).2
  | none => parser

/-- Drives the parser as `driveNoting` does: the messages. -/
def driveEvaluating (grammar : Grammar) (value : UInt16 → List Token → Json) (n : Nat)
    (done : List Noted) (parser : Parser) : Option (List Message × Parser) :=
  (driveNoting grammar value n done parser).map fun (noted, last) =>
    (noted.map Noted.message, last)

/-! ## Parsers that step together -/

/-- The parser with values in place of the trees on its stack. -/
def evaluated (value : UInt16 → List Token → Json) (parser : Parser) : Parser :=
  { parser with stack := parser.stack.map (Token.evaluate value) }

/-- The tokens that wait carry texts. -/
def ReadsTexts (parser : Parser) : Prop :=
  ∀ token ∈ parser.input, ∃ text, token.payload = .text text

theorem ReadsTexts.keeps : Keeps grammar (fun _ => True) ReadsTexts := by
  intro parser message next h hstep _ token htoken
  cases hstep with
  | tokenRead hopened hinput =>
    rw [List.mem_singleton.1 htoken]
    exact parser.lexer.nextToken_text grammar
  | noise hopened hinput hgroup hkind =>
    exact h token (by rw [hinput]; exact List.mem_cons_of_mem _ htoken)
  | shift hhandles haction =>
    exact h token (by rw [hhandles.input]; exact List.mem_cons_of_mem _ htoken)
  | _ => exact h token htoken

theorem Handles.evaluated (value : UInt16 → List Token → Json) {lookahead : Token}
    {rest : List Token} (h : Handles grammar parser lookahead rest) :
    Handles grammar (parser.evaluated value) lookahead rest :=
  ⟨h.opened, h.input, h.outside, h.kind⟩

theorem Reduces.evaluated (value : UInt16 → List Token → Json) {lookahead : Token}
    {rest : List Token} {index : UInt16} {production : Production}
    (h : Reduces grammar parser lookahead rest index production) :
    Reduces grammar (parser.evaluated value) lookahead rest index production :=
  ⟨h.toHandles.evaluated value, h.action, h.production⟩

theorem startOf_evaluate (children : List Token) (lookahead : Token) :
    startOf (children.map (Token.evaluate value)) lookahead = startOf children lookahead := by
  cases children with
  | nil => rfl
  | cons child children => exact Token.evaluate_position child

theorem evaluated_stack (value : UInt16 → List Token → Json) (children : List Token)
    {exposed : Token} {below : List Token}
    (hstack : parser.stack = children.reverse ++ exposed :: below) :
    (parser.evaluated value).stack = (children.map (Token.evaluate value)).reverse ++
      exposed.evaluate value :: below.map (Token.evaluate value) := by
  show parser.stack.map _ = _
  rw [hstack, List.map_append, List.map_reverse, List.map_cons]

/-- The two parsers step together, if a new reduction is evaluated. -/
theorem step_evaluated (value : UInt16 → List Token → Json) (h : ReadsTexts parser)
    (hstep : Step grammar parser message next) :
    ∃ built, Step grammar (parser.evaluated value) message built ∧
      built.responded value message = next.evaluated value := by
  cases hstep with
  | notLoaded hopened => exact ⟨_, .notLoaded hopened, rfl⟩
  | tokenRead hopened hinput hread => exact ⟨_, .tokenRead hopened hinput hread, rfl⟩
  | stuck hopened hinput hnever => exact ⟨_, .stuck hopened hinput hnever, rfl⟩
  | groupError hopened hinput hgroup => exact ⟨_, .groupError hopened hinput hgroup, rfl⟩
  | unknownSymbol hopened hinput hgroup hkind =>
    exact ⟨_, .unknownSymbol hopened hinput hgroup hkind, rfl⟩
  | noise hopened hinput hgroup hkind => exact ⟨_, .noise hopened hinput hgroup hkind, rfl⟩
  | lexicalError hopened hinput hgroup hkind =>
    exact ⟨_, .lexicalError hopened hinput hgroup hkind, rfl⟩
  | syntaxError hhandles haction => exact ⟨_, .syntaxError (hhandles.evaluated value) haction, rfl⟩
  | accept hhandles haction => exact ⟨_, .accept (hhandles.evaluated value) haction, rfl⟩
  | @shift lookahead rest target hhandles haction =>
    -- a token that was read from the text is its own value
    obtain ⟨text, htext⟩ := h lookahead (by rw [hhandles.input]; exact List.mem_cons_self)
    have hsame : Token.evaluate value { lookahead with state := target } =
        { lookahead with state := target } :=
      Token.evaluate_of_isLeaf (by rw [Token.isLeaf, htext]; rfl)
    have hstep := Step.shift (hhandles.evaluated value) haction
    rw [← hsame] at hstep
    exact ⟨_, hstep, rfl⟩
  | strayGoto hhandles haction => exact ⟨_, .strayGoto (hhandles.evaluated value) haction, rfl⟩
  | unknownProduction hhandles haction hproduction =>
    exact ⟨_, .unknownProduction (hhandles.evaluated value) haction hproduction, rfl⟩
  | underflow hreduces hstack =>
    refine ⟨_, .underflow (hreduces.evaluated value) ?_, rfl⟩
    show (parser.stack.map _).length ≤ _
    rw [List.length_map]
    exact hstack
  | @rename lookahead top exposed rest below index target production hreduces htrim hstack hgoto =>
    have hmap := evaluated_stack value [top] hstack
    rw [← Token.evaluate_state exposed] at hgoto
    refine ⟨_, .rename (hreduces.evaluated value) htrim hmap hgoto, ?_⟩
    rw [← Token.evaluate_rename]
    rfl
  | @renameLost lookahead top exposed rest below index production hreduces htrim hstack hgoto =>
    have hmap := evaluated_stack value [top] hstack
    rw [← Token.evaluate_state exposed] at hgoto
    exact ⟨_, .renameLost (hreduces.evaluated value) htrim hmap hgoto, rfl⟩
  | @reduction lookahead exposed rest children below index target production hreduces htrim hstack
      hlength hgoto =>
    have hmap := evaluated_stack value children hstack
    have hmapped : (children.map (Token.evaluate value)).length = production.body.length := by
      rw [List.length_map, hlength]
    rw [← Token.evaluate_state exposed] at hgoto
    refine ⟨_, .reduction (hreduces.evaluated value) htrim hmap hmapped hgoto, ?_⟩
    rw [responded, respond, if_pos rfl, evaluateCurrent_reduction rfl, startOf_evaluate,
      ← Token.evaluate_reduction]
    rfl
  | @reductionLost lookahead exposed rest children below index production hreduces htrim hstack
      hlength hgoto =>
    have hmap := evaluated_stack value children hstack
    have hmapped : (children.map (Token.evaluate value)).length = production.body.length := by
      rw [List.length_map, hlength]
    rw [← Token.evaluate_state exposed] at hgoto
    exact ⟨_, .reductionLost (hreduces.evaluated value) htrim hmap hmapped hgoto, rfl⟩

/-! ## Runs -/

/-- The next message is the same. -/
theorem parseWithin_evaluated (value : UInt16 → List Token → Json) (n : Nat)
    (h : ReadsTexts parser) :
    (parseWithin grammar n (parser.evaluated value)).map
        (fun found => (found.1, (found.2.respond value found.1).2)) =
      (parseWithin grammar n parser).map fun found => (found.1, found.2.evaluated value) := by
  induction n generalizing parser with
  | zero => rfl
  | succ n ih =>
    obtain ⟨message, next, hstep⟩ := exists_step grammar parser
    obtain ⟨built, hbuilt, hrespond⟩ := step_evaluated value h hstep
    unfold parseWithin
    rw [hstep.step_eq, hbuilt.step_eq]
    cases message with
    | none =>
      obtain rfl : built = next.evaluated value := hrespond
      exact ih (ReadsTexts.keeps _ _ _ h hstep fun _ _ => trivial)
    | some message => exact congrArg some (congrArg (message, ·) hrespond)

theorem parse_evaluated (grammar : Grammar) (value : UInt16 → List Token → Json)
    (h : ReadsTexts parser) :
    ((parser.evaluated value).parse grammar).map
        (fun found => (found.1, (found.2.respond value found.1).2)) =
      (parser.parse grammar).map fun found => (found.1, found.2.evaluated value) :=
  parseWithin_evaluated value _ h

/-- Whole runs go through the same messages. -/
theorem driveEvaluating_evaluated (value : UInt16 → List Token → Json) (n : Nat)
    (done : List Noted) (h : ReadsTexts parser) :
    driveEvaluating grammar value n done (parser.evaluated value) =
      (drive grammar n (done.map Noted.message) parser).map
        fun found => (found.1, found.2.evaluated value) := by
  induction n generalizing done parser with
  | zero =>
    rw [drive, ← List.map_reverse]
    rfl
  | succ n ih =>
    have hparse := parse_evaluated grammar value h
    unfold driveEvaluating driveNoting drive
    cases hplain : parser.parse grammar with
    | none =>
      rw [hplain, Option.map_none, Option.map_eq_none_iff] at hparse
      rw [hparse]
      rfl
    | some found =>
      obtain ⟨message, next⟩ := found
      rw [hplain, Option.map_some, Option.map_eq_some_iff] at hparse
      obtain ⟨⟨report, built⟩, hbuilt, heq⟩ := hparse
      obtain ⟨rfl, hrespond⟩ := Prod.mk.inj heq
      rw [hbuilt]
      simp only [Option.bind_eq_bind, Option.bind_some, hrespond]
      cases report.isFinal with
      | true => simp
      | false => exact ih _ (kept_of_parse ReadsTexts.keeps hplain trivial h)

/-- `parseTree` answers to the last message of a drive, which is final. -/
theorem exists_drive_of_parseTree {limit : Nat} {answer : Except ParseError Token}
    (done : List Message) (h : parseTree grammar limit parser = some (answer, next)) :
    ∃ messages final last,
      drive grammar limit done parser = some (done.reverse ++ messages ++ [final], last) ∧
        final.isFinal = true ∧ last.answer grammar final = (answer, next) := by
  induction limit generalizing done parser with
  | zero => cases h
  | succ limit ih =>
    obtain ⟨⟨message, behind⟩, hparse, h⟩ := Option.bind_eq_some_iff.1 h
    unfold drive
    rw [hparse]
    cases hfinal : message.isFinal with
    | true =>
      simp only [hfinal, if_true] at h
      exact ⟨[], message, behind, by simp [hfinal], hfinal, Option.some.inj h⟩
    | false =>
      simp only [hfinal, Bool.false_eq_true, if_false] at h
      obtain ⟨messages, final, last, hdrive, hanswer⟩ := ih (message :: done) h
      exact ⟨message :: messages, final, last, by simp [hfinal, hdrive], hanswer⟩

/-- A tree is on top of the stack when the input is accepted. -/
theorem answer_eq_ok {message : Message} {root : Token}
    (h : parser.answer grammar message = (.ok root, next)) :
    message = .accept ∧ parser.stack.head? = some root := by
  unfold answer at h
  split at h
  · next haccept =>
    cases hstack : parser.stack with
    | nil =>
      rw [hstack] at h
      cases h
    | cons top below =>
      rw [hstack] at h
      cases h
      exact ⟨haccept, rfl⟩
  · cases h

/-- If `parseTree` finds a tree for a text, then a parser with the same flag that is driven through
    the text, and whose reductions are evaluated as soon as they are built, goes through the same
    messages up to the one that the text is accepted. The token on top of its stack is then the
    root of the tree, except that it carries the value of the tree. -/
theorem evaluate_parseTree (value : UInt16 → List Token → Json) (first second : Parser)
    (trim : Bool) (text : String) {limit : Nat} {root : Token}
    (htree : parseTree grammar limit ((first.setTrim trim).openText grammar text) =
      some (.ok root, next)) :
    ∃ messages accepted evaluating log,
      drive grammar limit [] ((first.setTrim trim).openText grammar text) =
        some (messages ++ [.accept], accepted) ∧
      accepted.stack.head? = some root ∧
      driveEvaluating grammar value limit [] ((second.setTrim trim).openText grammar text) =
        some (messages ++ [.accept], evaluating) ∧
      evaluate grammar value limit [] ((second.setTrim trim).openText grammar text) =
        some (log, evaluating) ∧
      evaluating.stack.head? = some { root with payload := (root.evaluate value).payload } := by
  obtain ⟨messages, final, accepted, hdrive, -, hanswer⟩ := exists_drive_of_parseTree [] htree
  obtain ⟨rfl, hroot⟩ := answer_eq_ok hanswer
  have hopen : (second.setTrim trim).openText grammar text =
      ((first.setTrim trim).openText grammar text).evaluated value := by
    have hbottom : (bottom grammar).evaluate value = bottom grammar := Token.evaluate_of_isLeaf rfl
    show { (first.setTrim trim).openText grammar text with stack := [bottom grammar] } =
      { (first.setTrim trim).openText grammar text with
        stack := [(bottom grammar).evaluate value] }
    rw [hbottom]
  have hsame :
      driveEvaluating grammar value limit [] ((second.setTrim trim).openText grammar text) =
        some (messages ++ [.accept], accepted.evaluated value) := by
    have hreads : ReadsTexts ((first.setTrim trim).openText grammar text) :=
      fun token htoken => absurd htoken List.not_mem_nil
    rw [hopen, driveEvaluating_evaluated value limit [] hreads, List.map_nil, hdrive]
    rfl
  obtain ⟨⟨noted, evaluating⟩, hnoted, heq⟩ := Option.map_eq_some_iff.1 hsame
  obtain ⟨-, rfl⟩ := Prod.mk.inj heq
  have hevaluate :
      evaluate grammar value limit [] ((second.setTrim trim).openText grammar text) =
        some (noted.filterMap Noted.evaluated, accepted.evaluated value) := by
    rw [evaluate, hnoted]
    rfl
  refine ⟨messages, accepted, _, _, hdrive, hroot, hsame, hevaluate, ?_⟩
  show (accepted.stack.map _).head? = _
  rw [List.head?_map, hroot, ← Token.evaluate_eq]
  rfl

theorem evaluate_parseTree_sampleFile :
    ∃ grammar root last messages evaluating top, Grammar.ofBytes sampleFile = .ok grammar ∧
      parseTree grammar 7 (((start grammar).setTrim false).openText grammar " a ") =
        some (.ok root, last) ∧
      root.payload.reduction?.isSome = true ∧
      driveEvaluating grammar tally 7 []
        (((start grammar).setTrim false).openText grammar " a ") =
          some (messages ++ [.accept], evaluating) ∧
      evaluating.stack.head? = some top ∧ top.symbol = root.symbol ∧
      top.payload.value?.map Json.pretty = some "1" := by
  have hpasses : Grammar.passes sampleFile (fun grammar =>
      let opened := ((start grammar).setTrim false).openText grammar " a "
      (parseTree grammar 7 opened).any fun found =>
        found.1.toOption.any fun root => root.payload.reduction?.isSome &&
          (root.evaluate tally).payload.value?.map Json.pretty = some "1") = true := by
    decide +kernel
  obtain ⟨grammar, hgrammar, htest⟩ := Grammar.exists_of_passes hpasses
  simp only [Bool.and_eq_true, Option.any_eq_true, decide_eq_true_eq] at htest
  obtain ⟨⟨answer, last⟩, htree, root, hroot, hbuilt, hvalue⟩ := htest
  obtain rfl : answer = .ok root := by
    cases answer with
    | error fault => cases hroot
    | ok tree => rw [Option.some.inj hroot]
  obtain ⟨messages, accepted, evaluating, log, -, -, hdrive, -, htop⟩ :=
    evaluate_parseTree tally (start grammar) (start grammar) false " a " htree
  exact ⟨grammar, root, last, messages, evaluating, _, hgrammar, htree, hbuilt, hdrive, htop, rfl,
    hvalue⟩

end Parser

end GoldTables

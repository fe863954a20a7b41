import GoldTables.Proofs.LexerRuns
import GoldTables.Proofs.StepRuns
import GoldTables.Tree.Trim

/-!
# Trimming while parsing and afterwards

A parser that leaves out chain productions takes the same steps as one that
does not. Where the latter puts a token of a chain production on its stack, the
former renames the token of the body, and that is what trimming makes of the
new token. So at every point the one stack is the other one, trimmed, and
nothing that decides about the next step looks at what tokens carry.

Results:
* `step_trimmed`: the two parsers step together.
* `runSteps_trimmed`: and so do whole runs.
* `answers_openText_trim`: the answers differ only in that the tree is trimmed.
-/

namespace GoldTables

/-! ## Trimmed tokens -/

namespace Tables

variable {tables : Tables}

theorem trimAll_eq_map (tokens : List Token) :
    tables.trimAll tokens = tokens.map tables.trim := by
  induction tokens with
  | nil => rw [trimAll, List.map_nil]
  | cons token tokens ih => rw [trimAll, ih, List.map_cons]

theorem trim_text {token : Token} (h : ∃ text, token.payload = .text text) :
    tables.trim token = token := by
  obtain ⟨symbol, payload, position, state⟩ := token
  obtain ⟨text, rfl⟩ := h
  rw [trim]

/-- A chain production's token is left out, and the token of its body stands in its place. -/
theorem trim_chain {index head state : UInt16} {production : Production} {child : Token}
    {position : Position} (hproduction : tables.production? index = some production)
    (hchain : tables.isChain production = true) :
    tables.trim ⟨head, .reduction index [child], position, state⟩ =
      { tables.trim child with symbol := head, state := state } := by
  rw [trim, trimAll, trimAll]
  unfold trimmedToken
  simp only [hproduction, Option.any_some, hchain]

/-- The token of any other production stays, over trimmed tokens. -/
theorem trim_plain {index head state : UInt16} {production : Production} {children : List Token}
    {position : Position} (hproduction : tables.production? index = some production)
    (hchain : tables.isChain production = false) :
    tables.trim ⟨head, .reduction index children, position, state⟩ =
      ⟨head, .reduction index (children.map tables.trim), position, state⟩ := by
  rw [trim, trimAll_eq_map]
  unfold trimmedToken
  simp only [hproduction, Option.any_some, hchain]

@[simp] theorem trim_symbol (token : Token) : (tables.trim token).symbol = token.symbol := by
  obtain ⟨symbol, payload, position, state⟩ := token
  cases payload with
  | text text => rw [trim]
  | value value => rw [trim]
  | reduction index children =>
    rw [trim]
    unfold trimmedToken
    split <;> rfl

@[simp] theorem trim_state (token : Token) : (tables.trim token).state = token.state := by
  obtain ⟨symbol, payload, position, state⟩ := token
  cases payload with
  | text text => rw [trim]
  | value value => rw [trim]
  | reduction index children =>
    rw [trim]
    unfold trimmedToken
    split <;> rfl

end Tables

namespace Parser

variable {grammar : Grammar} {parser next : Parser} {message : Option Message}

/-! ## Parsers that step together -/

/-- The parser that leaves chain productions out. -/
def trimmed (grammar : Grammar) (parser : Parser) : Parser :=
  { parser with stack := parser.stack.map grammar.trim, trim := true }

/-- The parser keeps chain productions, its input was read from a text, and trimming the tokens on
    its stack does not move them. -/
structure Trimmable (grammar : Grammar) (parser : Parser) : Prop where
  trim : parser.trim = false
  input : ∀ token ∈ parser.input, ∃ text, token.payload = .text text
  stack : ∀ token ∈ parser.stack, (grammar.trim token).position = token.position

theorem Handles.trimmed {lookahead : Token} {rest : List Token}
    (h : Handles grammar parser lookahead rest) :
    Handles grammar (parser.trimmed grammar) lookahead rest :=
  ⟨h.opened, h.input, h.outside, h.kind⟩

theorem Reduces.trimmed {lookahead : Token} {rest : List Token} {index : UInt16}
    {production : Production} (h : Reduces grammar parser lookahead rest index production) :
    Reduces grammar (parser.trimmed grammar) lookahead rest index production :=
  ⟨h.toHandles.trimmed, h.action, h.production⟩

/-- Tokens that trimming does not move begin where they did. -/
theorem startOf_trim {children : List Token} (lookahead : Token)
    (h : ∀ child ∈ children, (grammar.trim child).position = child.position) :
    startOf (children.map grammar.trim) lookahead = startOf children lookahead := by
  cases children with
  | nil => rfl
  | cons child children => exact h child List.mem_cons_self

/-- A reduction of the parser, and what the other parser does instead. -/
theorem Reduces.step_trimmed {lookahead exposed : Token} {rest children below : List Token}
    {index : UInt16} {production : Production}
    (h : Reduces grammar parser lookahead rest index production)
    (hpositions : ∀ child ∈ children, (grammar.trim child).position = child.position)
    (hstack : parser.stack = children.reverse ++ exposed :: below)
    (hlength : children.length = production.body.length) :
    ∃ instead, (instead = some .reduction ∨ instead = none) ∧
      (∀ target, grammar.goto? exposed.state production.head = some target →
        Step grammar (parser.trimmed grammar) instead
          { (parser.trimmed grammar).lookAt lookahead with
            lrState := target
            stack := grammar.trim ⟨production.head, .reduction index children,
              startOf children lookahead, target⟩ :: (exposed :: below).map grammar.trim }) ∧
      (grammar.goto? exposed.state production.head = none →
        Step grammar (parser.trimmed grammar) (some .internalError)
          { (parser.trimmed grammar).lookAt lookahead with
            stack := (exposed :: below).map grammar.trim }) := by
  have hmap : (parser.trimmed grammar).stack =
      (children.map grammar.trim).reverse ++ grammar.trim exposed :: below.map grammar.trim := by
    show parser.stack.map grammar.trim = _
    rw [hstack, List.map_append, List.map_reverse, List.map_cons]
  rw [← Tables.trim_state exposed]
  cases hchain : grammar.isChain production with
  | false =>
    have htrim : ((parser.trimmed grammar).trim && grammar.isChain production) = false := by
      rw [hchain, Bool.and_false]
    have hmapped : (children.map grammar.trim).length = production.body.length := by
      rw [List.length_map, hlength]
    refine ⟨some .reduction, .inl rfl, fun target hgoto => ?_, fun hgoto => ?_⟩
    · rw [Tables.trim_plain h.production hchain, ← startOf_trim lookahead hpositions]
      exact .reduction h.trimmed htrim hmap hmapped hgoto
    · exact .reductionLost h.trimmed htrim hmap hmapped hgoto
  | true =>
    have htrim : ((parser.trimmed grammar).trim && grammar.isChain production) = true := by
      rw [hchain, Bool.and_true]
      rfl
    rw [Tables.length_body_of_isChain hchain] at hlength
    obtain ⟨child, rfl⟩ := List.length_eq_one_iff.1 hlength
    refine ⟨none, .inr rfl, fun target hgoto => ?_, fun hgoto => ?_⟩
    · rw [Tables.trim_chain h.production hchain]
      exact .rename h.trimmed htrim hmap hgoto
    · exact .renameLost h.trimmed htrim hmap hgoto

/-- The position of a new token does not move when it is trimmed. -/
theorem position_trim_reduction {lookahead : Token} {children : List Token}
    {index head state : UInt16} {production : Production}
    (hproduction : grammar.production? index = some production)
    (hpositions : ∀ child ∈ children, (grammar.trim child).position = child.position)
    (hlength : children.length = production.body.length) :
    (grammar.trim ⟨head, .reduction index children, startOf children lookahead, state⟩).position =
      startOf children lookahead := by
  cases hchain : grammar.isChain production with
  | false => rw [Tables.trim_plain hproduction hchain]
  | true =>
    rw [Tables.length_body_of_isChain hchain] at hlength
    obtain ⟨child, rfl⟩ := List.length_eq_one_iff.1 hlength
    rw [Tables.trim_chain hproduction hchain]
    exact hpositions child List.mem_cons_self

/-- The two parsers step together: one reports a reduction where the other is silent, or both
    report the same. -/
theorem step_trimmed (h : Trimmable grammar parser) (hstep : Step grammar parser message next) :
    Trimmable grammar next ∧ ∃ instead,
      (instead = message ∨ message = some .reduction ∧ instead = none) ∧
      Step grammar (parser.trimmed grammar) instead (next.trimmed grammar) := by
  cases hstep with
  | notLoaded hopened => exact ⟨h, _, .inl rfl, .notLoaded hopened⟩
  | tokenRead hopened hinput hread =>
    refine ⟨⟨h.trim, fun token htoken => ?_, h.stack⟩, _, .inl rfl,
      .tokenRead hopened hinput hread⟩
    rw [List.mem_singleton.1 htoken]
    exact parser.lexer.nextToken_text grammar
  | stuck hopened hinput hnever => exact ⟨h, _, .inl rfl, .stuck hopened hinput hnever⟩
  | groupError hopened hinput hgroup =>
    exact ⟨⟨h.trim, h.input, h.stack⟩, _, .inl rfl, .groupError hopened hinput hgroup⟩
  | unknownSymbol hopened hinput hgroup hkind =>
    exact ⟨⟨h.trim, h.input, h.stack⟩, _, .inl rfl, .unknownSymbol hopened hinput hgroup hkind⟩
  | noise hopened hinput hgroup hkind =>
    refine ⟨⟨h.trim, fun token htoken => h.input token ?_, h.stack⟩, _, .inl rfl,
      .noise hopened hinput hgroup hkind⟩
    rw [hinput]
    exact List.mem_cons_of_mem _ htoken
  | lexicalError hopened hinput hgroup hkind =>
    exact ⟨⟨h.trim, h.input, h.stack⟩, _, .inl rfl, .lexicalError hopened hinput hgroup hkind⟩
  | syntaxError hhandles haction =>
    exact ⟨⟨h.trim, h.input, h.stack⟩, _, .inl rfl, .syntaxError hhandles.trimmed haction⟩
  | accept hhandles haction =>
    exact ⟨⟨h.trim, h.input, h.stack⟩, _, .inl rfl, .accept hhandles.trimmed haction⟩
  | @shift lookahead rest target hhandles haction =>
    have htext : ∃ text, ({ lookahead with state := target } : Token).payload = .text text :=
      h.input lookahead (by rw [hhandles.input]; exact List.mem_cons_self)
    refine ⟨⟨h.trim, fun token htoken => h.input token ?_, ?_⟩, none, .inl rfl, ?_⟩
    · rw [hhandles.input]
      exact List.mem_cons_of_mem _ htoken
    · rw [List.forall_mem_cons]
      exact ⟨by rw [Tables.trim_text htext], h.stack⟩
    · have hstep := Step.shift hhandles.trimmed haction
      rw [← Tables.trim_text htext] at hstep
      exact hstep
  | strayGoto hhandles haction =>
    exact ⟨⟨h.trim, h.input, h.stack⟩, _, .inl rfl, .strayGoto hhandles.trimmed haction⟩
  | unknownProduction hhandles haction hproduction =>
    exact ⟨⟨h.trim, h.input, h.stack⟩, _, .inl rfl,
      .unknownProduction hhandles.trimmed haction hproduction⟩
  | underflow hreduces hstack =>
    refine ⟨⟨h.trim, h.input, h.stack⟩, _, .inl rfl, .underflow hreduces.trimmed ?_⟩
    show (parser.stack.map grammar.trim).length ≤ _
    rw [List.length_map]
    exact hstack
  | rename hreduces htrim => rw [h.trim] at htrim; cases htrim
  | renameLost hreduces htrim => rw [h.trim] at htrim; cases htrim
  | @reduction lookahead exposed rest children below index target production hreduces htrim hstack
      hlength hgoto =>
    have hpositions := h.stack
    rw [hstack, List.forall_mem_append] at hpositions
    have hchildren : ∀ child ∈ children, (grammar.trim child).position = child.position :=
      fun child hchild => hpositions.1 child (List.mem_reverse.2 hchild)
    obtain ⟨instead, hinstead, hstep, _⟩ := hreduces.step_trimmed hchildren hstack hlength
    refine ⟨⟨h.trim, h.input, ?_⟩, instead, ?_, hstep target hgoto⟩
    · rw [List.forall_mem_cons]
      exact ⟨position_trim_reduction hreduces.production hchildren hlength, hpositions.2⟩
    · rcases hinstead with rfl | rfl
      · exact .inl rfl
      · exact .inr ⟨rfl, rfl⟩
  | @reductionLost lookahead exposed rest children below index production hreduces htrim hstack
      hlength hgoto =>
    have hpositions := h.stack
    rw [hstack, List.forall_mem_append] at hpositions
    have hchildren : ∀ child ∈ children, (grammar.trim child).position = child.position :=
      fun child hchild => hpositions.1 child (List.mem_reverse.2 hchild)
    obtain ⟨instead, _, _, hstep⟩ := hreduces.step_trimmed hchildren hstack hlength
    exact ⟨⟨h.trim, h.input, hpositions.2⟩, _, .inl rfl, hstep hgoto⟩

/-! ## Runs and answers -/

/-- Whole runs go together. -/
theorem runSteps_trimmed (n : Nat) (h : Trimmable grammar parser) :
    runSteps grammar n (parser.trimmed grammar) =
      (runSteps grammar n parser).map fun found => (found.1, found.2.trimmed grammar) := by
  induction n generalizing parser with
  | zero => rfl
  | succ n ih =>
    obtain ⟨message, next, hstep⟩ := exists_step grammar parser
    obtain ⟨hnext, instead, hinstead, htrimmed⟩ := step_trimmed h hstep
    rcases isFinal_or_goesOn message with ⟨final, rfl, hfinal⟩ | hgoes
    · rw [runSteps_final hstep.step_eq hfinal]
      rcases hinstead with rfl | ⟨hreduction, rfl⟩
      · rw [runSteps_final htrimmed.step_eq hfinal]
        rfl
      · cases hreduction
        cases hfinal
    · rw [runSteps_goesOn hstep.step_eq hgoes, ← ih hnext]
      rcases hinstead with rfl | ⟨_, rfl⟩
      · exact runSteps_goesOn htrimmed.step_eq hgoes
      · exact runSteps_goesOn htrimmed.step_eq goesOn_none

/-- The answers to the same message differ only in that the tree is trimmed. -/
theorem answer_trimmed (parser : Parser) (message : Message) :
    ((parser.trimmed grammar).answer grammar message).1 =
      (parser.answer grammar message).1.map grammar.trim := by
  obtain ⟨lexer, opened, lrState, stack, input, expected, position, trim⟩ := parser
  rw [answer, answer]
  split
  · cases stack with
    | nil => rfl
    | cons root stack => rfl
  · rfl

/-- Trimming while parsing gives the trimmed tree, or the same error; and there is an answer with
    trimming if and only if there is one without it. -/
theorem answers_openText_trim (grammar : Grammar) (parser : Parser) (text : String)
    (result : Except ParseError Token) :
    Answers grammar ((parser.setTrim true).openText grammar text) result ↔
      ∃ plain, Answers grammar ((parser.setTrim false).openText grammar text) plain ∧
        result = plain.map grammar.trim := by
  have htrimmable : Trimmable grammar ((parser.setTrim false).openText grammar text) := by
    refine ⟨rfl, fun _ h => absurd h List.not_mem_nil, fun token htoken => ?_⟩
    rw [List.mem_singleton.1 htoken, Tables.trim_text ⟨"", rfl⟩]
  have hopen : (parser.setTrim true).openText grammar text =
      ((parser.setTrim false).openText grammar text).trimmed grammar := by
    have hbottom : grammar.trim (bottom grammar) = bottom grammar := Tables.trim_text ⟨"", rfl⟩
    show _ = { (parser.setTrim false).openText grammar text with
      stack := [grammar.trim (bottom grammar)], trim := true }
    rw [hbottom]
    rfl
  rw [hopen, answers_iff]
  simp only [runSteps_trimmed _ htrimmable, answers_iff]
  constructor
  · rintro ⟨n, message, last, hrun, rfl⟩
    obtain ⟨⟨message, plain⟩, hplain, hfound⟩ := Option.map_eq_some_iff.1 hrun
    cases hfound
    exact ⟨_, ⟨n, message, plain, hplain, rfl⟩, answer_trimmed plain message⟩
  · rintro ⟨_, ⟨n, message, plain, hplain, rfl⟩, rfl⟩
    refine ⟨n, message, plain.trimmed grammar, ?_, answer_trimmed plain message⟩
    rw [hplain]
    rfl

end Parser

end GoldTables

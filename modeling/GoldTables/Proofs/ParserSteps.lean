import GoldTables.Parser.Run
import GoldTables.Proofs.LexerRuns

/-!
# What a step of the parser does

`Step` lists everything a step may do, one constructor for each way through
the tables, with what the parser is like before and behind it. Properties of
the parser are proved by cases on it, and none of them unfolds `Parser.step`.

Results:
* `step_eq_iff`: the steps listed are the steps of the parser.
-/

namespace GoldTables

/-- The state that a state goes to on a nonterminal. -/
def Tables.goto? (tables : Tables) (state head : UInt16) : Option UInt16 :=
  match tables.action? state head with
  | some (.goto target) => some target
  | _ => none

theorem Tables.goto?_eq_some {tables : Tables} {state head target : UInt16} :
    tables.goto? state head = some target ↔ tables.action? state head = some (.goto target) := by
  rw [goto?]
  split
  · next other haction =>
    rw [haction]
    constructor <;> rintro ⟨⟩ <;> rfl
  · next hne =>
    constructor
    · nofun
    · exact fun h => absurd h (hne target)

/-- The body of a chain production is one symbol. -/
theorem Tables.length_body_of_isChain {tables : Tables} {production : Production}
    (h : tables.isChain production = true) : production.body.length = 1 := by
  rw [isChain] at h
  split at h
  · next only hbody => rw [hbody]; rfl
  · cases h

namespace Parser

variable {grammar : Grammar} {parser next : Parser} {message : Option Message}

/-! ## Lookaheads -/

/-- The parser looks at its lookahead. -/
def lookAt (parser : Parser) (lookahead : Token) : Parser :=
  { parser with position := lookahead.position }

/-- The parser handles its lookahead as the table says: no group is open, and the lookahead is
    neither noise nor an error. -/
structure Handles (grammar : Grammar) (parser : Parser) (lookahead : Token) (rest : List Token) :
    Prop where
  opened : parser.opened = true
  input : parser.input = lookahead :: rest
  outside : parser.lexer.inGroup = false
  kind : ∃ kind, grammar.kind? lookahead.symbol = some kind ∧ kind ≠ .noise ∧ kind ≠ .error

/-- The parser is to apply a production. -/
structure Reduces (grammar : Grammar) (parser : Parser) (lookahead : Token) (rest : List Token)
    (index : UInt16) (production : Production) : Prop
    extends Handles grammar parser lookahead rest where
  action : grammar.action? parser.lrState lookahead.symbol = some (.reduce index)
  production : grammar.production? index = some production

/-- Where a token with these children begins, in front of a lookahead. -/
def startOf (children : List Token) (lookahead : Token) : Position :=
  (children.head?.map Token.position).getD lookahead.position

/-! ## Steps -/

/-- What a step reports, and the parser behind it. -/
inductive Step (grammar : Grammar) (parser : Parser) : Option Message → Parser → Prop where
  /-- There is no input. -/
  | notLoaded (h : parser.opened = false) : Step grammar parser (some .notLoaded) parser
  /-- A token is read. -/
  | tokenRead (hopened : parser.opened = true) (hinput : parser.input = [])
    (hread : parser.lexer.nextToken? grammar = some (parser.lexer.nextToken grammar)) :
    Step grammar parser (some .tokenRead)
      { parser with
        lexer := (parser.lexer.nextToken grammar).2
        input := [(parser.lexer.nextToken grammar).1] }
  /-- The lexer never comes to a token, and neither does the parser. -/
  | stuck (hopened : parser.opened = true) (hinput : parser.input = [])
    (hnever : parser.lexer.nextToken? grammar = none) : Step grammar parser none parser
  /-- The lookahead was read inside a group. -/
  | groupError {lookahead : Token} {rest : List Token} (hopened : parser.opened = true)
    (hinput : parser.input = lookahead :: rest) (hgroup : parser.lexer.inGroup = true) :
    Step grammar parser (some .groupError) (parser.lookAt lookahead)
  /-- The lookahead's symbol does not exist. -/
  | unknownSymbol {lookahead : Token} {rest : List Token} (hopened : parser.opened = true)
    (hinput : parser.input = lookahead :: rest) (hgroup : parser.lexer.inGroup = false)
    (hkind : grammar.kind? lookahead.symbol = none) :
    Step grammar parser (some .internalError) (parser.lookAt lookahead)
  /-- Noise is dropped. -/
  | noise {lookahead : Token} {rest : List Token} (hopened : parser.opened = true)
    (hinput : parser.input = lookahead :: rest) (hgroup : parser.lexer.inGroup = false)
    (hkind : grammar.kind? lookahead.symbol = some .noise) :
    Step grammar parser none { parser.lookAt lookahead with input := rest }
  /-- The lookahead is an error token. -/
  | lexicalError {lookahead : Token} {rest : List Token} (hopened : parser.opened = true)
    (hinput : parser.input = lookahead :: rest) (hgroup : parser.lexer.inGroup = false)
    (hkind : grammar.kind? lookahead.symbol = some .error) :
    Step grammar parser (some .lexicalError) (parser.lookAt lookahead)
  /-- There is no action on the lookahead. -/
  | syntaxError {lookahead : Token} {rest : List Token} (h : Handles grammar parser lookahead rest)
    (haction : grammar.action? parser.lrState lookahead.symbol = none ∨
      grammar.action? parser.lrState lookahead.symbol = some .error) :
    Step grammar parser (some .syntaxError)
      { parser.lookAt lookahead with expected := grammar.expectable parser.lrState }
  /-- The input is accepted. -/
  | accept {lookahead : Token} {rest : List Token} (h : Handles grammar parser lookahead rest)
    (haction : grammar.action? parser.lrState lookahead.symbol = some .accept) :
    Step grammar parser (some .accept) (parser.lookAt lookahead)
  /-- The lookahead is shifted. -/
  | shift {lookahead : Token} {rest : List Token} {target : UInt16}
    (h : Handles grammar parser lookahead rest)
    (haction : grammar.action? parser.lrState lookahead.symbol = some (.shift target)) :
    Step grammar parser none
      { parser.lookAt lookahead with
        input := rest
        lrState := target
        stack := { lookahead with state := target } :: parser.stack }
  /-- The action on the lookahead is one on nonterminals. -/
  | strayGoto {lookahead : Token} {rest : List Token} {target : UInt16}
    (h : Handles grammar parser lookahead rest)
    (haction : grammar.action? parser.lrState lookahead.symbol = some (.goto target)) :
    Step grammar parser (some .internalError) (parser.lookAt lookahead)
  /-- The production to apply does not exist. -/
  | unknownProduction {lookahead : Token} {rest : List Token} {index : UInt16}
    (h : Handles grammar parser lookahead rest)
    (haction : grammar.action? parser.lrState lookahead.symbol = some (.reduce index))
    (hproduction : grammar.production? index = none) :
    Step grammar parser (some .internalError) (parser.lookAt lookahead)
  /-- There are too few tokens for the body of the production. -/
  | underflow {lookahead : Token} {rest : List Token} {index : UInt16} {production : Production}
    (h : Reduces grammar parser lookahead rest index production)
    (hstack : parser.stack.length ≤ production.body.length) :
    Step grammar parser (some .internalError) (parser.lookAt lookahead)
  /-- The token on top is renamed. -/
  | rename {lookahead top exposed : Token} {rest below : List Token} {index target : UInt16}
    {production : Production} (h : Reduces grammar parser lookahead rest index production)
    (htrim : (parser.trim && grammar.isChain production) = true)
    (hstack : parser.stack = top :: exposed :: below)
    (hgoto : grammar.goto? exposed.state production.head = some target) :
    Step grammar parser none
      { parser.lookAt lookahead with
        lrState := target
        stack := { top with symbol := production.head, state := target } :: exposed :: below }
  /-- The token on top is renamed, and then lost. -/
  | renameLost {lookahead top exposed : Token} {rest below : List Token} {index : UInt16}
    {production : Production} (h : Reduces grammar parser lookahead rest index production)
    (htrim : (parser.trim && grammar.isChain production) = true)
    (hstack : parser.stack = top :: exposed :: below)
    (hgoto : grammar.goto? exposed.state production.head = none) :
    Step grammar parser (some .internalError)
      { parser.lookAt lookahead with stack := exposed :: below }
  /-- The tokens of the body become one. -/
  | reduction {lookahead exposed : Token} {rest children below : List Token}
    {index target : UInt16} {production : Production}
    (h : Reduces grammar parser lookahead rest index production)
    (htrim : (parser.trim && grammar.isChain production) = false)
    (hstack : parser.stack = children.reverse ++ exposed :: below)
    (hlength : children.length = production.body.length)
    (hgoto : grammar.goto? exposed.state production.head = some target) :
    Step grammar parser (some .reduction)
      { parser.lookAt lookahead with
        lrState := target
        stack := ⟨production.head, .reduction index children, startOf children lookahead,
          target⟩ :: exposed :: below }
  /-- The tokens of the body become one, and then are lost. -/
  | reductionLost {lookahead exposed : Token} {rest children below : List Token} {index : UInt16}
    {production : Production} (h : Reduces grammar parser lookahead rest index production)
    (htrim : (parser.trim && grammar.isChain production) = false)
    (hstack : parser.stack = children.reverse ++ exposed :: below)
    (hlength : children.length = production.body.length)
    (hgoto : grammar.goto? exposed.state production.head = none) :
    Step grammar parser (some .internalError)
      { parser.lookAt lookahead with stack := exposed :: below }

/-! ## The steps listed are the steps of the parser -/

section

variable {lookahead top exposed : Token} {rest below children : List Token}
  {index target : UInt16} {production : Production}

theorem step_of_input (hopened : parser.opened = true) (hinput : parser.input = lookahead :: rest)
    (hgroup : parser.lexer.inGroup = false) :
    parser.step grammar =
      match grammar.kind? lookahead.symbol with
      | none => (some .internalError, parser.lookAt lookahead)
      | some .noise => (none, { parser.lookAt lookahead with input := rest })
      | some .error => (some .lexicalError, parser.lookAt lookahead)
      | some _ => (parser.lookAt lookahead).act grammar lookahead rest := by
  obtain ⟨lexer, opened, lrState, stack, input, expected, position, trim⟩ := parser
  cases hopened
  cases hinput
  rw [step, if_neg (by simp)]
  simp only [hgroup, Bool.false_eq_true, if_false]
  rfl

theorem Handles.step_eq (h : Handles grammar parser lookahead rest) :
    parser.step grammar = (parser.lookAt lookahead).act grammar lookahead rest := by
  obtain ⟨kind, hkind, hnoise, herror⟩ := h.kind
  rw [step_of_input h.opened h.input h.outside, hkind]
  cases kind with
  | noise => exact absurd rfl hnoise
  | error => exact absurd rfl herror
  | _ => rfl

theorem Reduces.step_eq (h : Reduces grammar parser lookahead rest index production) :
    parser.step grammar =
      (parser.lookAt lookahead).reduce grammar production index lookahead := by
  have haction : grammar.action? (parser.lookAt lookahead).lrState lookahead.symbol =
    some (.reduce index) := h.action
  rw [h.toHandles.step_eq, act, haction]
  simp only [h.production]

theorem enter_of_goto {head : Token}
    (hgoto : grammar.goto? exposed.state head.symbol = some target) :
    parser.enter grammar head (exposed :: below) message =
      (message,
        { parser with
          lrState := target
          stack := { head with state := target } :: exposed :: below }) := by
  rw [Tables.goto?_eq_some] at hgoto
  simp only [enter, List.head?_cons, Option.bind_some, hgoto]

theorem enter_of_no_goto {head : Token} (hgoto : grammar.goto? exposed.state head.symbol = none) :
    parser.enter grammar head (exposed :: below) message =
      (some .internalError, { parser with stack := exposed :: below }) := by
  simp only [enter, List.head?_cons, Option.bind_some]
  split
  · next target haction =>
    rw [Tables.goto?_eq_some.2 haction] at hgoto
    cases hgoto
  · rfl

theorem Reduces.step_underflow (h : Reduces grammar parser lookahead rest index production)
    (hstack : parser.stack.length ≤ production.body.length) :
    parser.step grammar = (some .internalError, parser.lookAt lookahead) := by
  have hdrop : (parser.lookAt lookahead).stack.drop production.body.length = [] :=
    List.drop_eq_nil_of_le hstack
  rw [h.step_eq, reduce, hdrop]
  split
  · next h => cases h
  · rfl

theorem Reduces.step_rename (h : Reduces grammar parser lookahead rest index production)
    (htrim : (parser.trim && grammar.isChain production) = true)
    (hstack : parser.stack = top :: exposed :: below) :
    parser.step grammar =
      (parser.lookAt lookahead).enter grammar { top with symbol := production.head }
        (exposed :: below) none := by
  have hlength : production.body.length = 1 :=
    Tables.length_body_of_isChain (Bool.and_eq_true_iff.1 htrim).2
  have hlooked : (parser.lookAt lookahead).stack = top :: exposed :: below := hstack
  rw [h.step_eq, reduce, hlength, hlooked]
  simp only [lookAt, List.drop_succ_cons, List.drop_zero, htrim, if_true]

theorem Reduces.step_plain (h : Reduces grammar parser lookahead rest index production)
    (htrim : (parser.trim && grammar.isChain production) = false)
    (hstack : parser.stack = children.reverse ++ exposed :: below)
    (hlength : children.length = production.body.length) :
    parser.step grammar =
      (parser.lookAt lookahead).enter grammar
        ⟨production.head, .reduction index children, startOf children lookahead, 0⟩
        (exposed :: below) (some .reduction) := by
  have hlooked : (parser.lookAt lookahead).stack = children.reverse ++ exposed :: below := hstack
  have hreverse : production.body.length = children.reverse.length := by
    rw [List.length_reverse, hlength]
  have hdrop : (parser.lookAt lookahead).stack.drop production.body.length = exposed :: below := by
    rw [hlooked, hreverse, List.drop_left]
  have htake :
      ((parser.lookAt lookahead).stack.take production.body.length).reverse = children := by
    rw [hlooked, hreverse, List.take_left, List.reverse_reverse]
  obtain ⟨top, under, hcons⟩ : ∃ top under, (parser.lookAt lookahead).stack = top :: under :=
    List.exists_cons_of_ne_nil (by rw [hlooked]; simp)
  rw [h.step_eq, reduce, hdrop, htake, hcons]
  simp only [lookAt, htrim, Bool.false_eq_true, if_false]
  rfl

end

/-- A step that is listed is the step that the parser takes. -/
theorem Step.step_eq (h : Step grammar parser message next) :
    parser.step grammar = (message, next) := by
  cases h with
  | notLoaded h => rw [step, h]; rfl
  | tokenRead hopened hinput hread =>
    rw [step, hopened, hinput]
    simp only [hread, Bool.not_true, Bool.false_eq_true, if_false]
  | stuck hopened hinput hnever =>
    rw [step, hopened, hinput]
    simp only [hnever, Bool.not_true, Bool.false_eq_true, if_false]
  | groupError hopened hinput hgroup =>
    obtain ⟨lexer, opened, lrState, stack, input, expected, position, trim⟩ := parser
    cases hopened
    cases hinput
    rw [step, if_neg (by simp)]
    simp only [hgroup, if_true]
    rfl
  | unknownSymbol hopened hinput hgroup hkind =>
    rw [step_of_input hopened hinput hgroup, hkind]
  | noise hopened hinput hgroup hkind => rw [step_of_input hopened hinput hgroup, hkind]
  | lexicalError hopened hinput hgroup hkind => rw [step_of_input hopened hinput hgroup, hkind]
  | syntaxError h haction =>
    rw [h.step_eq, act]
    rcases haction with haction | haction
    · simp only [lookAt, haction]
    · simp only [lookAt, haction]
  | accept h haction => rw [h.step_eq, act]; simp only [lookAt, haction]
  | shift h haction => rw [h.step_eq, act]; simp only [lookAt, haction]
  | strayGoto h haction => rw [h.step_eq, act]; simp only [lookAt, haction]
  | unknownProduction h haction hproduction =>
    rw [h.step_eq, act]
    simp only [lookAt, haction, hproduction]
  | underflow h hstack => exact h.step_underflow hstack
  | rename h htrim hstack hgoto => exact (h.step_rename htrim hstack).trans (enter_of_goto hgoto)
  | renameLost h htrim hstack hgoto =>
    exact (h.step_rename htrim hstack).trans (enter_of_no_goto hgoto)
  | reduction h htrim hstack hlength hgoto =>
    exact (h.step_plain htrim hstack hlength).trans (enter_of_goto hgoto)
  | reductionLost h htrim hstack hlength hgoto =>
    exact (h.step_plain htrim hstack hlength).trans (enter_of_no_goto hgoto)

/-- A stack that goes deeper than a body holds the children of the body, in reverse. -/
theorem exists_children {stack : List Token} {exposed : Token} {size : Nat}
    (h : stack[size]? = some exposed) :
    ∃ children below, stack = List.reverse children ++ exposed :: below ∧
      children.length = size := by
  obtain ⟨hlt, rfl⟩ := List.getElem?_eq_some_iff.1 h
  refine ⟨(stack.take size).reverse, stack.drop (size + 1), ?_, ?_⟩
  · rw [List.reverse_reverse, ← List.drop_eq_getElem_cons hlt, List.take_append_drop]
  · rw [List.length_reverse, List.length_take]
    omega

section

variable {lookahead exposed : Token} {rest children below : List Token} {index : UInt16}
  {production : Production}

/-- If the exposed state does not go on with the head, the body is lost, whatever becomes of the
    token of a chain production. -/
theorem Reduces.step_lost (h : Reduces grammar parser lookahead rest index production)
    (hstack : parser.stack = children.reverse ++ exposed :: below)
    (hlength : children.length = production.body.length)
    (hgoto : grammar.goto? exposed.state production.head = none) :
    Step grammar parser (some .internalError)
      { parser.lookAt lookahead with stack := exposed :: below } := by
  cases htrim : parser.trim && grammar.isChain production with
  | false => exact .reductionLost h htrim hstack hlength hgoto
  | true =>
    rw [Tables.length_body_of_isChain (Bool.and_eq_true_iff.1 htrim).2] at hlength
    obtain ⟨top, rfl⟩ := List.length_eq_one_iff.1 hlength
    exact .renameLost h htrim hstack hgoto

/-- A parser that is to apply a production has a step that is listed. -/
theorem Reduces.exists_step (h : Reduces grammar parser lookahead rest index production) :
    ∃ message next, Step grammar parser message next := by
  rcases Nat.lt_or_ge production.body.length parser.stack.length with hlt | hle
  · obtain ⟨children, below, hstack, hlength⟩ :=
      exists_children (List.getElem?_eq_getElem hlt)
    cases hgoto : grammar.goto? parser.stack[production.body.length].state production.head with
    | none => exact ⟨_, _, h.step_lost hstack hlength hgoto⟩
    | some target =>
      cases htrim : parser.trim && grammar.isChain production with
      | false => exact ⟨_, _, .reduction h htrim hstack hlength hgoto⟩
      | true =>
        rw [Tables.length_body_of_isChain (Bool.and_eq_true_iff.1 htrim).2] at hlength
        obtain ⟨top, rfl⟩ := List.length_eq_one_iff.1 hlength
        exact ⟨_, _, .rename h htrim hstack hgoto⟩
  · exact ⟨_, _, .underflow h hle⟩

end

/-- A parser that handles its lookahead as the table says has a step that is listed. -/
theorem Handles.exists_step {lookahead : Token} {rest : List Token}
    (h : Handles grammar parser lookahead rest) :
    ∃ message next, Step grammar parser message next := by
  cases haction : grammar.action? parser.lrState lookahead.symbol with
  | none => exact ⟨_, _, .syntaxError h (.inl haction)⟩
  | some action =>
    cases action with
    | error => exact ⟨_, _, .syntaxError h (.inr haction)⟩
    | accept => exact ⟨_, _, .accept h haction⟩
    | shift target => exact ⟨_, _, .shift h haction⟩
    | goto target => exact ⟨_, _, .strayGoto h haction⟩
    | reduce index =>
      cases hproduction : grammar.production? index with
      | none => exact ⟨_, _, .unknownProduction h haction hproduction⟩
      | some production => exact Reduces.exists_step ⟨h, haction, hproduction⟩

/-- Every parser has a step that is listed. -/
theorem exists_step (grammar : Grammar) (parser : Parser) :
    ∃ message next, Step grammar parser message next := by
  cases hopened : parser.opened with
  | false => exact ⟨_, _, .notLoaded hopened⟩
  | true =>
    cases hinput : parser.input with
    | nil =>
      cases hread : parser.lexer.nextToken? grammar with
      | none => exact ⟨_, _, .stuck hopened hinput hread⟩
      | some found =>
        refine ⟨_, _, .tokenRead hopened hinput ?_⟩
        rw [hread, Lexer.nextToken_of_nextToken? hread]
    | cons lookahead rest =>
      cases hgroup : parser.lexer.inGroup with
      | true => exact ⟨_, _, .groupError hopened hinput hgroup⟩
      | false =>
        cases hkind : grammar.kind? lookahead.symbol with
        | none => exact ⟨_, _, .unknownSymbol hopened hinput hgroup hkind⟩
        | some kind =>
          by_cases hnoise : kind = .noise
          · exact ⟨_, _, .noise hopened hinput hgroup (hnoise ▸ hkind)⟩
          by_cases herror : kind = .error
          · exact ⟨_, _, .lexicalError hopened hinput hgroup (herror ▸ hkind)⟩
          exact Handles.exists_step ⟨hopened, hinput, hgroup, kind, hkind, hnoise, herror⟩

/-- The steps listed are the steps of the parser. -/
theorem step_eq_iff : parser.step grammar = (message, next) ↔ Step grammar parser message next := by
  constructor
  · intro h
    obtain ⟨message', next', hstep⟩ := exists_step grammar parser
    rw [hstep.step_eq] at h
    cases h
    exact hstep
  · exact Step.step_eq

end Parser

end GoldTables

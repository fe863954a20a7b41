import GoldTables.Proofs.LoadedGrammars
import GoldTables.Proofs.StepRuns

/-!
# The parser refines a batch machine

The batch machine is an LR parser as it stands in a textbook. It has all tokens
of the text before it starts, without the noise, and a stack of tokens with the
states behind them; the state it is in is the one on top. The parser interleaves
reading, dropping noise and parsing, keeps its state beside the stack, and finds
actions through an index. Both come to the same answer, or to none.

Results:
* `Parser.step_aligned`: the parser handles a lookahead as the machine does.
* `Parser.answers_openText_iff_batch`: the answers of the parser are those of the machine.
-/

namespace GoldTables

/-! ## The machine -/

namespace Batch

/-- Tokens with the states behind them, the last one first. -/
abbrev Stack := List (UInt16 × Token)

/-- The stack before the first token. It holds the initial state, on the token at the bottom. -/
def start (grammar : Grammar) : Stack := [(grammar.lrInitial, Parser.bottom grammar)]

/-- What a step leads to. -/
inductive Outcome where
  | halt (answer : Except ParseError Token)
  /-- The next token is put on the stack. -/
  | shift (stack : Stack)
  /-- The next token is looked at again. -/
  | reduce (stack : Stack)

/-- The first action on a symbol in the list of a state. -/
def firstAction? (grammar : Grammar) (state symbol : UInt16) : Option Action :=
  (grammar.lrState? state).bind fun row =>
    (row.actions.toList.find? fun entry => entry.symbol = symbol).map LrAction.action

/-- The token of a production's head over the tokens of its body. It begins where the first of
    them does, or at the next token. A chain production may rename the token of its body. -/
def headToken (grammar : Grammar) (trim : Bool) (index : UInt16) (production : Production)
    (children : List Token) (next : Token) : Token :=
  match trim && grammar.isChain production, children with
  | true, [only] => { only with symbol := production.head }
  | _, _ =>
    ⟨production.head, .reduction index children,
      (children.head?.map Token.position).getD next.position, 0⟩

/-- Applies a production in front of the next token. -/
def reduce (grammar : Grammar) (trim : Bool) (stack : Stack) (index : UInt16)
    (production : Production) (next : Token) : Outcome :=
  let size := production.body.length
  match stack.drop size with
  | [] => .halt (.error (.internal next.position))
  | (exposed, token) :: below =>
    let children := ((stack.take size).map Prod.snd).reverse
    let head := headToken grammar trim index production children next
    match firstAction? grammar exposed production.head with
    | some (.goto target) =>
      .reduce ((target, { head with state := target }) :: (exposed, token) :: below)
    | _ => .halt (.error (.internal next.position))

/-- Handles the next token. -/
def step (grammar : Grammar) (trim : Bool) (stack : Stack) (reading : Lexer.Reading) : Outcome :=
  let next := reading.token
  if reading.inGroup then .halt (.error (.group next.position))
  else if grammar.kind? next.symbol = some .error then
    .halt (.error (.lexical (next.payload.text?.getD "") next.position))
  else
    match stack with
    | [] => .halt (.error (.internal next.position))
    | (state, top) :: _ =>
      match firstAction? grammar state next.symbol with
      | none | some .error =>
        let expected := (grammar.expectable state).filterMap grammar.symbol?
        .halt (.error (.unexpected (grammar.symbolLabel next.symbol) (expected.map Symbol.text)
          next.position))
      | some .accept => .halt (.ok top)
      | some (.shift target) => .shift ((target, { next with state := target }) :: stack)
      | some (.reduce index) =>
        match grammar.production? index with
        | some production => reduce grammar trim stack index production next
        | none => .halt (.error (.internal next.position))
      | some (.goto _) => .halt (.error (.internal next.position))

/-- Runs the machine on tokens, for at most a number of steps; `none` if these or the tokens do
    not suffice. -/
def run (grammar : Grammar) (trim : Bool) :
    Nat → List Lexer.Reading → Stack → Option (Except ParseError Token)
  | 0, _, _ => none
  | _ + 1, [], _ => none
  | n + 1, reading :: rest, stack =>
    match step grammar trim stack reading with
    | .halt answer => some answer
    | .shift stack => run grammar trim n rest stack
    | .reduce stack => run grammar trim n (reading :: rest) stack

/-- The machine answers, once it has enough of the tokens that a lexer reads. -/
def Answers (grammar : Grammar) (trim : Bool) (lexer : Lexer) (result : Except ParseError Token) :
    Prop :=
  ∃ n steps,
    run grammar trim steps (Lexer.significant grammar (lexer.readings grammar n)) (start grammar) =
      some result

end Batch

theorem Grammar.Linked.firstAction?_eq {grammar : Grammar} (h : grammar.Linked)
    (state symbol : UInt16) :
    Batch.firstAction? grammar state symbol = grammar.action? state symbol := by
  rw [Batch.firstAction?, Tables.action?]
  cases hrow : grammar.lrState? state with
  | none => rfl
  | some row =>
    rw [Option.bind_some, Option.bind_some,
      (h.indexed row (Array.mem_of_getElem? hrow)).action?_eq]

theorem Grammar.Loaded.firstAction?_eq {grammar : Grammar} (h : grammar.Loaded)
    (state symbol : UInt16) :
    Batch.firstAction? grammar state symbol = grammar.action? state symbol :=
  h.linked.firstAction?_eq state symbol

namespace Parser

variable {grammar : Grammar} {parser next : Parser} {message : Option Message} {trim : Bool}

/-! ## The machine's stack of a parser -/

/-- The tokens on the stack, with the states behind them. -/
def entries (stack : List Token) : Batch.Stack := stack.map fun token => (token.state, token)

/-- The tokens that wait, as they were read. -/
def pending (parser : Parser) : List Lexer.Reading :=
  parser.input.map fun token => ⟨token, parser.lexer.inGroup⟩

/-- A parser of a text that goes along with the machine: its state is that of the token on top of
    its stack, and one token waits at most, which was read last. -/
structure Aligned (grammar : Grammar) (trim : Bool) (parser : Parser) : Prop where
  opened : parser.opened = true
  trim : parser.trim = trim
  state : ∃ top below, parser.stack = top :: below ∧ top.state = parser.lrState
  groups : Grammar.Loaded.GroupsExist grammar parser.lexer
  single : parser.input.length ≤ 1
  input : ∀ token ∈ parser.input, (∃ kind, grammar.kind? token.symbol = some kind) ∧
    (parser.lexer.inGroup = true → grammar.kind? token.symbol = some .endOfInput)

/-- The machine's answer to a lookahead that the parser handles as the table says. -/
theorem Handles.batch_step {lookahead : Token} {rest : List Token} (hloaded : grammar.Loaded)
    (haligned : Aligned grammar trim parser) (h : Handles grammar parser lookahead rest) :
    ∃ top below, parser.stack = top :: below ∧
      Batch.step grammar trim (entries parser.stack) ⟨lookahead, parser.lexer.inGroup⟩ =
        match grammar.action? parser.lrState lookahead.symbol with
        | none | some .error =>
          let expected := (grammar.expectable parser.lrState).filterMap grammar.symbol?
          .halt (.error (.unexpected (grammar.symbolLabel lookahead.symbol)
            (expected.map Symbol.text) lookahead.position))
        | some .accept => .halt (.ok top)
        | some (.shift target) =>
          .shift (entries ({ lookahead with state := target } :: parser.stack))
        | some (.reduce index) =>
          match grammar.production? index with
          | some production =>
            Batch.reduce grammar trim (entries parser.stack) index production lookahead
          | none => .halt (.error (.internal lookahead.position))
        | some (.goto _) => .halt (.error (.internal lookahead.position)) := by
  obtain ⟨top, below, hstack, hstate⟩ := haligned.state
  obtain ⟨kind, hkind, _, herror⟩ := h.kind
  refine ⟨top, below, hstack, ?_⟩
  have hnoError : ¬grammar.kind? lookahead.symbol = some .error := by
    rw [hkind]
    exact fun heq => herror (Option.some.inj heq)
  unfold Batch.step
  simp only [h.outside, Bool.false_eq_true, if_false, if_neg hnoError, hstack, ← hstate]
  rw [entries, List.map_cons]
  simp only [hloaded.firstAction?_eq]
  rfl

/-- What the machine makes of the tokens of a body. -/
theorem batch_reduce {lookahead exposed : Token} {children below : List Token} {index : UInt16}
    {production : Production} (hloaded : grammar.Loaded)
    (hstack : parser.stack = children.reverse ++ exposed :: below)
    (hlength : children.length = production.body.length) :
    Batch.reduce grammar trim (entries parser.stack) index production lookahead =
      match grammar.goto? exposed.state production.head with
      | some target =>
        .reduce (entries ({ Batch.headToken grammar trim index production children lookahead with
          state := target } :: exposed :: below))
      | none => .halt (.error (.internal lookahead.position)) := by
  have hentries : entries parser.stack =
      (entries children).reverse ++ (exposed.state, exposed) :: entries below := by
    rw [hstack, entries, List.map_append, List.map_reverse]
    rfl
  have hreverse : production.body.length = (entries children).reverse.length := by
    rw [List.length_reverse, entries, List.length_map, hlength]
  have hchildren : (((entries children).reverse).map Prod.snd).reverse = children := by
    rw [List.map_reverse, List.reverse_reverse, entries, List.map_map]
    exact List.map_id children
  rw [Batch.reduce, hentries, hreverse, List.drop_left, List.take_left, hchildren]
  simp only [hloaded.firstAction?_eq]
  cases hgoto : grammar.goto? exposed.state production.head with
  | some target =>
    rw [Tables.goto?_eq_some] at hgoto
    rw [hgoto]
    rfl
  | none =>
    split
    · next target haction =>
      rw [Tables.goto?_eq_some.2 haction] at hgoto
      cases hgoto
    · rfl

theorem Reduces.batch_step {lookahead : Token} {rest : List Token} {index : UInt16}
    {production : Production} (hloaded : grammar.Loaded) (haligned : Aligned grammar trim parser)
    (h : Reduces grammar parser lookahead rest index production) :
    Batch.step grammar trim (entries parser.stack) ⟨lookahead, parser.lexer.inGroup⟩ =
      Batch.reduce grammar trim (entries parser.stack) index production lookahead := by
  obtain ⟨_, _, _, hbatch⟩ := h.toHandles.batch_step hloaded haligned
  rw [hbatch, h.action]
  simp only [h.production]

theorem batch_reduce_underflow {lookahead : Token} {stack : List Token} {index : UInt16}
    {production : Production} (h : stack.length ≤ production.body.length) :
    Batch.reduce grammar trim (entries stack) index production lookahead =
      .halt (.error (.internal lookahead.position)) := by
  have hdrop : (entries stack).drop production.body.length = [] :=
    List.drop_eq_nil_of_le (by rw [entries, List.length_map]; exact h)
  rw [Batch.reduce, hdrop]

theorem headToken_rename {top lookahead : Token} {index : UInt16} {production : Production}
    (htrim : (trim && grammar.isChain production) = true) :
    Batch.headToken grammar trim index production [top] lookahead =
      { top with symbol := production.head } := by
  unfold Batch.headToken
  simp only [htrim]

theorem headToken_plain {children : List Token} {lookahead : Token} {index : UInt16}
    {production : Production} (htrim : (trim && grammar.isChain production) = false) :
    Batch.headToken grammar trim index production children lookahead =
      ⟨production.head, .reduction index children, startOf children lookahead, 0⟩ := by
  unfold Batch.headToken
  simp only [htrim]
  rfl

/-- The parser reads a token. -/
theorem Aligned.tokenRead (hloaded : grammar.Loaded) (h : Aligned grammar trim parser)
    (hinput : parser.input = []) :
    ∃ next, parser.step grammar = (some .tokenRead, next) ∧ Aligned grammar trim next ∧
      next.stack = parser.stack ∧ next.lexer = (parser.lexer.nextToken grammar).2 ∧
      next.input = [(parser.lexer.nextToken grammar).1] := by
  obtain ⟨hgroups, hkind, hend⟩ := hloaded.nextToken h.groups
  refine ⟨_, (Step.tokenRead h.opened hinput (hloaded.nextToken?_eq _)).step_eq, ?_, rfl, rfl, rfl⟩
  refine ⟨h.opened, h.trim, h.state, hgroups, Nat.le_refl 1, fun token htoken => ?_⟩
  rw [List.mem_singleton.1 htoken]
  exact ⟨hkind, hend⟩

/-- Only the end of the input is read inside a group. -/
theorem Aligned.outside {lookahead : Token} (h : Aligned grammar trim parser)
    (hinput : parser.input = [lookahead])
    (hkind : grammar.kind? lookahead.symbol ≠ some .endOfInput) : parser.lexer.inGroup = false := by
  rw [← Bool.not_eq_true]
  exact fun hgroup => hkind ((h.input lookahead (hinput ▸ List.mem_cons_self)).2 hgroup)

/-- The parser drops noise. -/
theorem Aligned.noise {lookahead : Token} (h : Aligned grammar trim parser)
    (hinput : parser.input = [lookahead])
    (hnoise : grammar.kind? lookahead.symbol = some .noise) :
    ∃ next, parser.step grammar = (none, next) ∧ Aligned grammar trim next ∧
      next.stack = parser.stack ∧ next.lexer = parser.lexer ∧ next.input = [] := by
  have houtside : parser.lexer.inGroup = false := h.outside hinput (by rw [hnoise]; nofun)
  refine ⟨_, (Step.noise h.opened hinput houtside hnoise).step_eq, ?_, rfl, rfl, rfl⟩
  exact ⟨h.opened, h.trim, h.state, h.groups, Nat.zero_le 1,
    fun _ hmem => absurd hmem List.not_mem_nil⟩

/-- What a step of the parser and a step of the machine make of a lookahead, if they agree. -/
inductive Agrees (grammar : Grammar) (trim : Bool) (parser : Parser) (lookahead : Token) :
    Option Message → Parser → Prop where
  /-- Both end with one answer. -/
  | ends {final : Message} {next : Parser} (hfinal : final.isFinal = true)
    (hbatch : Batch.step grammar trim (entries parser.stack) ⟨lookahead, parser.lexer.inGroup⟩ =
      .halt (next.answer grammar final).1) : Agrees grammar trim parser lookahead (some final) next
  /-- Both shift the lookahead. -/
  | shifts {next : Parser} (hnext : Aligned grammar trim next) (hlexer : next.lexer = parser.lexer)
    (hinput : next.input = [])
    (hbatch : Batch.step grammar trim (entries parser.stack) ⟨lookahead, parser.lexer.inGroup⟩ =
      .shift (entries next.stack)) : Agrees grammar trim parser lookahead none next
  /-- Both apply a production. -/
  | reduces {message : Option Message} {next : Parser} (hgoes : GoesOn message)
    (hnext : Aligned grammar trim next) (hlexer : next.lexer = parser.lexer)
    (hinput : next.input = [lookahead])
    (hbatch : Batch.step grammar trim (entries parser.stack) ⟨lookahead, parser.lexer.inGroup⟩ =
      .reduce (entries next.stack)) : Agrees grammar trim parser lookahead message next

/-- The parser handles a lookahead that is not noise as the machine does. -/
theorem step_aligned {lookahead : Token} (hloaded : grammar.Loaded)
    (h : Aligned grammar trim parser) (hinput : parser.input = [lookahead])
    (hnoise : grammar.kind? lookahead.symbol ≠ some .noise)
    (hstep : Step grammar parser message next) :
    Agrees grammar trim parser lookahead message next := by
  have hsame : ∀ {other : Token} {rest : List Token}, parser.input = other :: rest →
      other = lookahead ∧ rest = [] := by
    intro other rest hother
    rw [hinput] at hother
    cases hother
    exact ⟨rfl, rfl⟩
  have hknown := (h.input lookahead (by rw [hinput]; exact List.mem_cons_self)).1
  cases hstep with
  | notLoaded hopened =>
    rw [h.opened] at hopened
    cases hopened
  | tokenRead _ hnone =>
    rw [hinput] at hnone
    cases hnone
  | stuck _ hnone =>
    rw [hinput] at hnone
    cases hnone
  | groupError _ hother hgroup =>
    obtain ⟨rfl, -⟩ := hsame hother
    refine .ends rfl ?_
    rw [Batch.step.eq_def]
    simp only [hgroup, if_true]
    rfl
  | unknownSymbol _ hother _ hkind =>
    obtain ⟨rfl, -⟩ := hsame hother
    obtain ⟨kind, hknown⟩ := hknown
    rw [hkind] at hknown
    cases hknown
  | noise _ hother _ hkind =>
    obtain ⟨rfl, -⟩ := hsame hother
    exact absurd hkind hnoise
  | lexicalError _ hother hgroup hkind =>
    obtain ⟨rfl, -⟩ := hsame hother
    refine .ends rfl ?_
    rw [Batch.step.eq_def]
    simp only [hgroup, hkind, Bool.false_eq_true, if_false, if_true]
    rw [answer, errorOf, currentToken?]
    simp [lookAt, hinput]
  | syntaxError hhandles haction =>
    obtain ⟨rfl, rfl⟩ := hsame hhandles.input
    obtain ⟨top, below, hstack, hbatch⟩ := hhandles.batch_step hloaded h
    refine .ends rfl ?_
    rw [hbatch, answer, errorOf, currentToken?]
    rcases haction with haction | haction
    · simp [haction, lookAt, hinput]
    · simp [haction, lookAt, hinput]
  | accept hhandles haction =>
    obtain ⟨rfl, rfl⟩ := hsame hhandles.input
    obtain ⟨top, below, hstack, hbatch⟩ := hhandles.batch_step hloaded h
    refine .ends rfl ?_
    rw [hbatch, haction, answer]
    simp [lookAt, hstack]
  | shift hhandles haction =>
    obtain ⟨rfl, rfl⟩ := hsame hhandles.input
    obtain ⟨top, below, hstack, hbatch⟩ := hhandles.batch_step hloaded h
    refine .shifts ?_ rfl rfl (by rw [hbatch, haction])
    exact ⟨h.opened, h.trim, ⟨_, _, rfl, rfl⟩, h.groups, Nat.zero_le 1,
      fun _ hmem => absurd hmem List.not_mem_nil⟩
  | strayGoto hhandles haction =>
    obtain ⟨rfl, rfl⟩ := hsame hhandles.input
    obtain ⟨top, below, hstack, hbatch⟩ := hhandles.batch_step hloaded h
    exact .ends rfl (by rw [hbatch, haction]; rfl)
  | unknownProduction hhandles haction hproduction =>
    obtain ⟨rfl, rfl⟩ := hsame hhandles.input
    obtain ⟨top, below, hstack, hbatch⟩ := hhandles.batch_step hloaded h
    exact .ends rfl (by rw [hbatch, haction]; simp only [hproduction]; rfl)
  | underflow hreduces hlength =>
    obtain ⟨rfl, rfl⟩ := hsame hreduces.input
    refine .ends rfl ?_
    rw [hreduces.batch_step hloaded h, batch_reduce_underflow hlength]
    rfl
  | @rename _ top exposed _ below index target production hreduces htrim hstack hgoto =>
    obtain ⟨rfl, rfl⟩ := hsame hreduces.input
    rw [h.trim] at htrim
    have hlength : [top].length = production.body.length :=
      (Tables.length_body_of_isChain (Bool.and_eq_true_iff.1 htrim).2).symm
    refine .reduces goesOn_none ?_ rfl hinput ?_
    · exact ⟨h.opened, h.trim, ⟨_, _, rfl, rfl⟩, h.groups, h.single, h.input⟩
    · rw [hreduces.batch_step hloaded h, batch_reduce hloaded hstack hlength, hgoto,
        headToken_rename htrim]
  | @renameLost _ top exposed _ below index production hreduces htrim hstack hgoto =>
    obtain ⟨rfl, rfl⟩ := hsame hreduces.input
    rw [h.trim] at htrim
    have hlength : [top].length = production.body.length :=
      (Tables.length_body_of_isChain (Bool.and_eq_true_iff.1 htrim).2).symm
    refine .ends rfl ?_
    rw [hreduces.batch_step hloaded h, batch_reduce hloaded hstack hlength, hgoto]
    rfl
  | reduction hreduces htrim hstack hlength hgoto =>
    obtain ⟨rfl, rfl⟩ := hsame hreduces.input
    rw [h.trim] at htrim
    refine .reduces (by rintro _ ⟨⟩; rfl) ?_ rfl hinput ?_
    · exact ⟨h.opened, h.trim, ⟨_, _, rfl, rfl⟩, h.groups, h.single, h.input⟩
    · rw [hreduces.batch_step hloaded h, batch_reduce hloaded hstack hlength, hgoto,
        headToken_plain htrim]
  | reductionLost hreduces htrim hstack hlength hgoto =>
    obtain ⟨rfl, rfl⟩ := hsame hreduces.input
    refine .ends rfl ?_
    rw [hreduces.batch_step hloaded h, batch_reduce hloaded hstack hlength, hgoto]
    rfl

/-! ## Runs go together -/

/-- The tokens that a parser has yet to handle, as far as they are read. -/
def upcoming (grammar : Grammar) (parser : Parser) (n : Nat) : List Lexer.Reading :=
  Lexer.significant grammar (parser.pending ++ parser.lexer.readings grammar n)

theorem upcoming_of_nil (hinput : parser.input = []) (n : Nat) :
    parser.upcoming grammar n = Lexer.significant grammar (parser.lexer.readings grammar n) := by
  rw [upcoming, pending, hinput]
  rfl

theorem upcoming_of_singleton {lookahead : Token} (hinput : parser.input = [lookahead]) (n : Nat) :
    parser.upcoming grammar n =
      Lexer.significant grammar
        (⟨lookahead, parser.lexer.inGroup⟩ :: parser.lexer.readings grammar n) := by
  rw [upcoming, pending, hinput]
  rfl

theorem upcoming_of_lookahead {lookahead : Token} (hinput : parser.input = [lookahead])
    (hnoise : grammar.kind? lookahead.symbol ≠ some .noise) (n : Nat) :
    parser.upcoming grammar n =
      ⟨lookahead, parser.lexer.inGroup⟩ ::
        Lexer.significant grammar (parser.lexer.readings grammar n) := by
  rw [upcoming_of_singleton hinput, Lexer.significant_cons ⟨_, _⟩ hnoise]

/-- Reading a token does not change what is to come. -/
theorem upcoming_tokenRead (hinput : parser.input = [])
    (hlexer : next.lexer = (parser.lexer.nextToken grammar).2)
    (hread : next.input = [(parser.lexer.nextToken grammar).1]) (n : Nat) :
    parser.upcoming grammar (n + 1) = next.upcoming grammar n := by
  rw [upcoming_of_nil hinput, upcoming_of_singleton hread, Lexer.readings, hlexer]

theorem Aligned.input_cases (h : Aligned grammar trim parser) :
    parser.input = [] ∨ ∃ lookahead, parser.input = [lookahead] := by
  have hsingle := h.single
  cases hinput : parser.input with
  | nil => exact .inl rfl
  | cons lookahead rest =>
    rw [hinput, List.length_cons] at hsingle
    have hrest : rest = [] :=
      List.length_eq_zero_iff.1 (Nat.le_zero.1 (Nat.le_of_succ_le_succ hsingle))
    exact .inr ⟨lookahead, by rw [hrest]⟩

/-- What the parser answers is what the machine answers. -/
theorem Aligned.batch_of_runSteps (hloaded : grammar.Loaded) {k : Nat} {final : Message}
    {last : Parser} (h : Aligned grammar trim parser)
    (hrun : runSteps grammar k parser = some (final, last)) :
    ∃ n steps, Batch.run grammar trim steps (parser.upcoming grammar n) (entries parser.stack) =
      some (last.answer grammar final).1 := by
  induction k generalizing parser with
  | zero => cases hrun
  | succ k ih =>
    rcases h.input_cases with hinput | ⟨lookahead, hinput⟩
    · obtain ⟨next, hstep, hnext, hstack, hlexer, hread⟩ := h.tokenRead hloaded hinput
      rw [runSteps_goesOn hstep (by rintro _ ⟨⟩; rfl)] at hrun
      obtain ⟨n, steps, hbatch⟩ := ih hnext hrun
      refine ⟨n + 1, steps, ?_⟩
      rw [upcoming_tokenRead hinput hlexer hread, ← hstack]
      exact hbatch
    by_cases hnoise : grammar.kind? lookahead.symbol = some .noise
    · obtain ⟨next, hstep, hnext, hstack, hlexer, hdropped⟩ := h.noise hinput hnoise
      rw [runSteps_goesOn hstep goesOn_none] at hrun
      obtain ⟨n, steps, hbatch⟩ := ih hnext hrun
      refine ⟨n, steps, ?_⟩
      rw [upcoming_of_nil hdropped, hlexer, hstack] at hbatch
      rw [upcoming_of_singleton hinput, Lexer.significant_cons_noise ⟨_, _⟩ hnoise]
      exact hbatch
    obtain ⟨message, next, hstep⟩ := exists_step grammar parser
    cases step_aligned hloaded h hinput hnoise hstep with
    | ends hfinal hbatch =>
      rw [runSteps_final hstep.step_eq hfinal] at hrun
      cases hrun
      refine ⟨0, 1, ?_⟩
      rw [upcoming_of_lookahead hinput hnoise, Batch.run, hbatch]
    | shifts hnext hlexer hshifted hbatch =>
      rw [runSteps_goesOn hstep.step_eq goesOn_none] at hrun
      obtain ⟨n, steps, hrest⟩ := ih hnext hrun
      refine ⟨n, steps + 1, ?_⟩
      rw [upcoming_of_nil hshifted, hlexer] at hrest
      rw [upcoming_of_lookahead hinput hnoise, Batch.run, hbatch]
      exact hrest
    | reduces hgoes hnext hlexer hkept hbatch =>
      rw [runSteps_goesOn hstep.step_eq hgoes] at hrun
      obtain ⟨n, steps, hrest⟩ := ih hnext hrun
      refine ⟨n, steps + 1, ?_⟩
      rw [upcoming_of_lookahead hkept hnoise, hlexer] at hrest
      rw [upcoming_of_lookahead hinput hnoise, Batch.run, hbatch]
      exact hrest

/-- What the machine answers is what the parser answers. -/
theorem Aligned.runSteps_of_batch {parser : Parser} (hloaded : grammar.Loaded) {n steps : Nat}
    {result : Except ParseError Token} (h : Aligned grammar trim parser)
    (hrun : Batch.run grammar trim steps (parser.upcoming grammar n) (entries parser.stack) =
      some result) :
    ∃ k final last, runSteps grammar k parser = some (final, last) ∧
      (last.answer grammar final).1 = result := by
  rcases h.input_cases with hinput | ⟨lookahead, hinput⟩
  · cases n with
    | zero =>
      rw [upcoming_of_nil hinput] at hrun
      cases steps with
      | zero => cases hrun
      | succ steps => cases hrun
    | succ n =>
      obtain ⟨next, hstep, hnext, hstack, hlexer, hread⟩ := h.tokenRead hloaded hinput
      rw [upcoming_tokenRead hinput hlexer hread, ← hstack] at hrun
      obtain ⟨k, final, last, hk, hanswer⟩ := hnext.runSteps_of_batch hloaded hrun
      refine ⟨k + 1, final, last, ?_, hanswer⟩
      rw [runSteps_goesOn hstep (by rintro _ ⟨⟩; rfl)]
      exact hk
  by_cases hnoise : grammar.kind? lookahead.symbol = some .noise
  · obtain ⟨next, hstep, hnext, hstack, hlexer, hdropped⟩ := h.noise hinput hnoise
    rw [upcoming_of_singleton hinput, Lexer.significant_cons_noise ⟨_, _⟩ hnoise, ← hlexer,
      ← upcoming_of_nil hdropped, ← hstack] at hrun
    obtain ⟨k, final, last, hk, hanswer⟩ := hnext.runSteps_of_batch hloaded hrun
    refine ⟨k + 1, final, last, ?_, hanswer⟩
    rw [runSteps_goesOn hstep goesOn_none]
    exact hk
  obtain ⟨message, next, hstep⟩ := exists_step grammar parser
  cases steps with
  | zero => cases hrun
  | succ steps =>
    rw [upcoming_of_lookahead hinput hnoise, Batch.run] at hrun
    cases step_aligned hloaded h hinput hnoise hstep with
    | @ends final next hfinal hbatch =>
      rw [hbatch] at hrun
      exact ⟨1, final, next, runSteps_final hstep.step_eq hfinal, Option.some.inj hrun⟩
    | shifts hnext hlexer hshifted hbatch =>
      rw [hbatch, ← hlexer] at hrun
      have hrest : next.upcoming grammar n = _ := upcoming_of_nil hshifted n
      rw [← hrest] at hrun
      obtain ⟨k, final, last, hk, hanswer⟩ := hnext.runSteps_of_batch hloaded hrun
      refine ⟨k + 1, final, last, ?_, hanswer⟩
      rw [runSteps_goesOn hstep.step_eq goesOn_none]
      exact hk
    | reduces hgoes hnext hlexer hkept hbatch =>
      rw [hbatch, ← hlexer] at hrun
      have hrest := upcoming_of_lookahead hkept hnoise n
      rw [← hrest] at hrun
      obtain ⟨k, final, last, hk, hanswer⟩ := hnext.runSteps_of_batch hloaded hrun
      refine ⟨k + 1, final, last, ?_, hanswer⟩
      rw [runSteps_goesOn hstep.step_eq hgoes]
      exact hk
termination_by (steps, 2 * n + parser.input.length)
decreasing_by
  · rw [hread, hinput]
    exact Prod.Lex.right _ (by simp only [List.length_cons, List.length_nil]; omega)
  · rw [hdropped, hinput]
    exact Prod.Lex.right _ (by simp only [List.length_cons, List.length_nil]; omega)
  · exact Prod.Lex.left _ _ (by omega)
  · exact Prod.Lex.left _ _ (by omega)

/-- A parser that was opened on a text goes along with the machine. -/
theorem aligned_openText (grammar : Grammar) (parser : Parser) (trim : Bool) (text : String) :
    Aligned grammar trim ((parser.setTrim trim).openText grammar text) where
  opened := rfl
  trim := rfl
  state := ⟨_, _, rfl, rfl⟩
  groups := fun _ hmem => absurd hmem List.not_mem_nil
  single := Nat.zero_le 1
  input := fun _ hmem => absurd hmem List.not_mem_nil

/-- The parser comes to an answer if and only if the batch machine comes to it. -/
theorem answers_openText_iff_batch {bytes : List UInt8} {grammar : Grammar}
    (h : Grammar.ofBytes bytes = .ok grammar) (parser : Parser) (trim : Bool) (text : String)
    (result : Except ParseError Token) :
    Answers grammar ((parser.setTrim trim).openText grammar text) result ↔
      Batch.Answers grammar trim (.openText text) result := by
  have hloaded := Grammar.loaded_of_ofBytes h
  have haligned := aligned_openText grammar parser trim text
  have hupcoming : ∀ n, ((parser.setTrim trim).openText grammar text).upcoming grammar n =
      Lexer.significant grammar ((Lexer.openText text).readings grammar n) :=
    fun n => upcoming_of_nil rfl n
  rw [answers_iff]
  constructor
  · rintro ⟨k, final, last, hrun, rfl⟩
    obtain ⟨n, steps, hbatch⟩ := haligned.batch_of_runSteps hloaded hrun
    rw [hupcoming] at hbatch
    exact ⟨n, steps, hbatch⟩
  · rintro ⟨n, steps, hbatch⟩
    have hrun : Batch.run grammar trim steps
        (((parser.setTrim trim).openText grammar text).upcoming grammar n)
        (entries ((parser.setTrim trim).openText grammar text).stack) = some result := by
      rw [hupcoming]
      exact hbatch
    exact haligned.runSteps_of_batch hloaded hrun

theorem answers_openText_iff_batch_sampleFile :
    ∃ grammar root, Grammar.ofBytes sampleFile = .ok grammar ∧
      Answers grammar (((start grammar).setTrim true).openText grammar " a ") (.ok root) ∧
      Batch.Answers grammar true (.openText " a ") (.ok root) := by
  have hpasses : Grammar.passes sampleFile (fun grammar =>
      (parseTree grammar 9 (((start grammar).setTrim true).openText grammar " a ")).any
        fun answer => answer.1.isOk) = true := by decide +kernel
  obtain ⟨grammar, hgrammar, hanswer⟩ := Grammar.exists_of_passes hpasses
  obtain ⟨⟨result, last⟩, hresult, hok⟩ := (Option.any_eq_true _ _).1 hanswer
  cases result with
  | error fault => cases hok
  | ok root =>
    have hanswers : Answers grammar
        (((start grammar).setTrim true).openText grammar " a ") (.ok root) := ⟨9, last, hresult⟩
    exact ⟨grammar, root, hgrammar, hanswers,
      (answers_openText_iff_batch hgrammar (start grammar) true " a " _).1 hanswers⟩

end Parser

end GoldTables

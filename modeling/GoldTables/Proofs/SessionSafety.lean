import GoldTables.Proofs.LoadedGrammars
import GoldTables.Proofs.ParseSoundness
import GoldTables.Proofs.Sessions
import GoldTables.Proofs.StrictLookups

/-!
# No session follows a wrong index

Indices are checked when a grammar is linked, and followed ever after. This is
enough, whatever a consumer does with a parser, and also behind every error:
the tokens on the stack carry states that exist, the token at the bottom stays
there, and the open groups exist.

Results:
* `Secure.keeps`: what the steps of a parser rely on, they keep.
* `Secure.strictParseWithin_eq`: a parser follows no wrong index on its way to a message.
* `session_secure`: all this holds in every session.
-/

namespace GoldTables.Parser

open Grammar.Loaded

variable {grammar : Grammar} {parser next : Parser} {messages : List Message}

/-! ## Stacks -/

/-- A stack on the token at the bottom, of tokens that carry states that exist. -/
structure Rooted (grammar : Grammar) (stack : List Token) : Prop where
  bottom : stack.getLast? = some (bottom grammar)
  states : ∀ token ∈ stack, token.state.toNat < grammar.lrStates.size

section

variable {token top exposed : Token} {tokens below : List Token}

theorem Rooted.cons (h : Rooted grammar below)
    (hstate : token.state.toNat < grammar.lrStates.size) : Rooted grammar (token :: below) where
  bottom := by rw [List.getLast?_cons, h.bottom]; rfl
  states := List.forall_mem_cons.2 ⟨hstate, h.states⟩

theorem Rooted.of_append (h : Rooted grammar (tokens ++ exposed :: below)) :
    Rooted grammar (exposed :: below) where
  bottom := by
    rw [← h.bottom, List.getLast?_append_of_ne_nil _ (List.cons_ne_nil _ _)]
  states token hmem := h.states token (List.mem_append_right _ hmem)

theorem Rooted.tail (h : Rooted grammar (top :: exposed :: below)) :
    Rooted grammar (exposed :: below) :=
  Rooted.of_append (show Rooted grammar ([top] ++ exposed :: below) from h)

/-- The token on top may carry something else, if it is not the one at the bottom. -/
theorem Rooted.payload (h : Rooted grammar (top :: below))
    (htop : below ≠ [] ∨ top.payload.reduction?.isSome = true) (payload : Payload) :
    Rooted grammar ({ top with payload } :: below) := by
  cases below with
  | nil =>
    -- the token at the bottom is no reduction
    obtain rfl : top = Parser.bottom grammar := Option.some.inj h.bottom
    rcases htop with hne | hsome
    · exact absurd rfl hne
    · cases hsome
  | cons exposed below => exact h.tail.cons (h.states top List.mem_cons_self)

end

/-! ## Steps -/

/-- What the steps of a parser rely on. -/
structure Secure (grammar : Grammar) (parser : Parser) : Prop where
  stack : Rooted grammar parser.stack
  lrState : parser.lrState.toNat < grammar.lrStates.size
  groups : GroupsExist grammar parser.lexer

/-- A state that the parser goes to over a nonterminal exists. -/
theorem toNat_lt_of_goto? (h : grammar.Linked) {state head target : UInt16}
    (hgoto : grammar.goto? state head = some target) :
    target.toNat < grammar.lrStates.size :=
  h.inRange.of_action? (Tables.goto?_eq_some.1 hgoto)

/-- Every step keeps what the steps rely on, whatever it reports. -/
theorem Secure.keeps (h : grammar.Linked) :
    Keeps grammar (fun _ => True) (Secure grammar) := by
  intro parser message next hsecure hstep _
  obtain ⟨hstack, hstate, hgroups⟩ := hsecure
  cases hstep with
  | tokenRead => exact ⟨hstack, hstate, h.groupsExist_nextToken hgroups⟩
  | shift _ haction =>
    have htarget := h.inRange.of_action? haction
    exact ⟨hstack.cons htarget, htarget, hgroups⟩
  | rename _ _ heq hgoto =>
    rw [heq] at hstack
    have htarget := toNat_lt_of_goto? h hgoto
    exact ⟨hstack.tail.cons htarget, htarget, hgroups⟩
  | renameLost _ _ heq =>
    rw [heq] at hstack
    exact ⟨hstack.tail, hstate, hgroups⟩
  | reduction _ _ heq _ hgoto =>
    rw [heq] at hstack
    have htarget := toNat_lt_of_goto? h hgoto
    exact ⟨hstack.of_append.cons htarget, htarget, hgroups⟩
  | reductionLost _ _ heq =>
    rw [heq] at hstack
    exact ⟨hstack.of_append, hstate, hgroups⟩
  | _ => exact ⟨hstack, hstate, hgroups⟩

/-! ## No step follows a wrong index -/

section

variable {production : Production} {index : UInt16} {message : Option Message}
  {lookahead : Token} {rest : List Token}

theorem strictEnter_eq (h : grammar.Linked) (hproduction : grammar.ProductionInRange production)
    {below : List Token}
    (hbelow : ∀ token ∈ below, token.state.toNat < grammar.lrStates.size) (head : Token) :
    parser.strictEnter grammar production head below message =
      some (parser.enter grammar head below message) := by
  cases below with
  | nil => rfl
  | cons exposed below =>
    obtain ⟨rows, hrows⟩ : ∃ rows,
        (production.head :: production.body).mapM grammar.symbol? = some rows := by
      apply exists_mapM_eq_some
      intro symbol hsymbol
      apply Tables.exists_symbol
      rcases List.mem_cons.1 hsymbol with rfl | hsymbol
      · exact hproduction.head
      · exact hproduction.body symbol hsymbol
    have haction := h.strictAction_eq (hbelow exposed List.mem_cons_self) head.symbol
    simp only [strictEnter, enter, haction, hrows, List.head?_cons, Option.bind_eq_bind,
      Option.bind_some]
    cases grammar.action? exposed.state head.symbol with
    | none => rfl
    | some action => cases action <;> rfl

theorem Secure.strictReduce_eq (hsecure : Secure grammar parser) (h : grammar.Linked)
    (hproduction : grammar.ProductionInRange production) :
    parser.strictReduce grammar production index lookahead =
      some (parser.reduce grammar production index lookahead) := by
  have hrenames : parser.strictRenames grammar production =
      some (parser.trim && grammar.isChain production) := by
    rw [strictRenames]
    cases parser.trim with
    | false => rfl
    | true => exact Grammar.Linked.strictIsChain_eq hproduction.body
  have hstates := hsecure.stack.states
  rw [strictReduce, reduce]
  cases hstack : parser.stack with
  | nil => rfl
  | cons top under =>
    cases hdrop : (top :: under).drop production.body.length with
    | nil => rfl
    | cons exposed below =>
      rw [hstack] at hstates
      simp only [hrenames, Option.bind_eq_bind, Option.bind_some]
      cases parser.trim && grammar.isChain production with
      | true =>
        exact strictEnter_eq h hproduction (List.forall_mem_cons.1 hstates).2 _
      | false =>
        have hbelow : ∀ token ∈ exposed :: below, token.state.toNat < grammar.lrStates.size := by
          intro token hmem
          rw [← hdrop] at hmem
          exact hstates token (List.mem_of_mem_drop hmem)
        exact strictEnter_eq h hproduction hbelow _

theorem Secure.strictAct_eq (hsecure : Secure grammar parser) (h : grammar.Linked) :
    parser.strictAct grammar lookahead rest = some (parser.act grammar lookahead rest) := by
  rw [strictAct, act, h.strictAction_eq hsecure.lrState, Option.bind_eq_bind, Option.bind_some]
  cases haction : grammar.action? parser.lrState lookahead.symbol with
  | none =>
    rw [h.strictExpectable_eq hsecure.lrState]
    rfl
  | some action =>
    cases action with
    | error =>
      rw [h.strictExpectable_eq hsecure.lrState]
      rfl
    | accept => rfl
    | shift target => rfl
    | goto target => rfl
    | reduce index =>
      have hlt : index.toNat < grammar.productions.size := h.inRange.of_action? haction
      have hproduction : grammar.production? index = some grammar.productions[index.toNat] :=
        Array.getElem?_eq_getElem hlt
      simp only [hproduction]
      exact hsecure.strictReduce_eq h (h.inRange.productions _ (Array.getElem_mem hlt))

/-- A step follows no wrong index. -/
theorem Secure.strictStep_eq (hsecure : Secure grammar parser) (h : grammar.Linked) :
    parser.strictStep grammar = some (parser.step grammar) := by
  obtain ⟨lexer, opened, lrState, stack, input, expected, position, trim⟩ := parser
  rw [strictStep, step]
  cases opened with
  | false => rfl
  | true =>
    cases input with
    | nil =>
      simp only [Lexer.strictNextToken_eq h hsecure.groups]
      cases lexer.nextToken? grammar <;> rfl
    | cons lookahead rest =>
      have hlooked : Secure grammar
          ⟨lexer, true, lrState, stack, lookahead :: rest, expected, lookahead.position, trim⟩ :=
        ⟨hsecure.stack, hsecure.lrState, hsecure.groups⟩
      cases hgroup : lexer.inGroup with
      | true => simp [hgroup]
      | false =>
        simp only [hgroup, Bool.not_true, Bool.false_eq_true, if_false]
        cases grammar.kind? lookahead.symbol with
        | none => rfl
        | some kind =>
          cases kind with
          | noise => rfl
          | error => rfl
          | _ => exact hlooked.strictAct_eq h

/-- On its way to the next message the parser follows no wrong index. -/
theorem Secure.strictParseWithin_eq (hsecure : Secure grammar parser) (h : grammar.Linked)
    (n : Nat) : strictParseWithin grammar n parser = some (parseWithin grammar n parser) := by
  induction n generalizing parser with
  | zero => rfl
  | succ n ih =>
    rw [strictParseWithin, parseWithin, hsecure.strictStep_eq h, Option.bind_eq_bind,
      Option.bind_some]
    rcases hstep : parser.step grammar with ⟨_ | message, next⟩
    · exact ih (Secure.keeps h _ _ _ hsecure (step_eq_iff.1 hstep) fun _ _ => trivial)
    · rfl

end

/-! ## Sessions -/

theorem rooted_bottom (h : grammar.Linked) : Rooted grammar [bottom grammar] where
  bottom := rfl
  states := List.forall_mem_singleton.2 h.inRange.lrInitial

theorem Secure.kept (h : grammar.Linked) : Kept grammar (fun _ => True) (Secure grammar) where
  restart _ := ⟨rooted_bottom h, h.inRange.lrInitial, fun _ hmem => absurd hmem List.not_mem_nil⟩
  openText _ _ :=
    ⟨rooted_bottom h, h.inRange.lrInitial, fun _ hmem => absurd hmem List.not_mem_nil⟩
  setTrim _ _ hsecure := ⟨hsecure.stack, hsecure.lrState, hsecure.groups⟩
  step := Secure.keeps h
  input _ _ hsecure := ⟨hsecure.stack, hsecure.lrState, hsecure.groups⟩
  payload parser top below payload hsecure hstack htop := by
    have hrooted := hsecure.stack
    rw [hstack] at hrooted
    exact ⟨hrooted.payload htop payload, hsecure.lrState, hsecure.groups⟩

/-- In every session, on a grammar from a file or from JSON, the token at the bottom of the stack
    stays there, the state of the parser and those on its stack exist, and so do the open groups;
    and the next call of `parse` follows no wrong index, however many steps it takes. Wherever the
    call is, the lexer follows none in any number of turns of its loop through the groups, also if
    the loop never ends, and the groups that are open behind them exist. The calls that `parseTree`
    makes are calls in a session, too. -/
theorem session_secure
    (h : (∃ bytes, Grammar.ofBytes bytes = .ok grammar) ∨
      ∃ document, Grammar.ofDocument document = .ok grammar)
    (hsession : Session grammar messages parser) :
    parser.stack.getLast? = some (bottom grammar) ∧
      parser.lrState.toNat < grammar.lrStates.size ∧
      (∀ token ∈ parser.stack, token.state.toNat < grammar.lrStates.size) ∧
      (∀ opened ∈ parser.lexer.groups, opened.group.toNat < grammar.groups.size) ∧
      (∀ n, strictParseWithin grammar n parser = some (parseWithin grammar n parser)) ∧
      ∀ last, Silent grammar parser last → ∀ n,
        Lexer.strictStepsWithin grammar n last.lexer =
            some (Lexer.stepsWithin grammar n last.lexer) ∧
          ∀ opened ∈ (Lexer.stepsWithin grammar n last.lexer).lexer.groups,
            opened.group.toNat < grammar.groups.size := by
  have hlinked := Grammar.linked_of_load h
  have hsecure := hsession.invariant (Secure.kept hlinked) fun _ _ => trivial
  refine ⟨hsecure.stack.bottom, hsecure.lrState, hsecure.stack.states, hsecure.groups,
    hsecure.strictParseWithin_eq hlinked, fun last hsilent n => ?_⟩
  have hlast := hsilent.kept (Secure.keeps hlinked) hsecure
  exact ⟨Lexer.strictStepsWithin_eq hlinked hlast.groups n,
    hlinked.groupsExist_stepsWithin hlast.groups n⟩

/-- Behind an internal error, with a lookahead whose symbol and state do not exist. -/
theorem session_secure_lostFile :
    ∃ grammar messages parser, Grammar.ofBytes lostFile = .ok grammar ∧
      Session grammar messages parser ∧ .internalError ∈ messages ∧
      parser.input.head?.map Token.symbol = some 9 ∧
      parser.stack.getLast? = some (bottom grammar) ∧
      ∀ n, strictParseWithin grammar n parser = some (parseWithin grammar n parser) := by
  have hpasses : Grammar.passes lostFile (fun grammar =>
      (calls grammar 4 ((start grammar).openText grammar "ab")).any fun run =>
        run.1.contains .internalError) = true := by decide +kernel
  obtain ⟨grammar, hgrammar, htest⟩ := Grammar.exists_of_passes hpasses
  simp only [Option.any_eq_true, List.contains_iff_mem] at htest
  obtain ⟨⟨messages, current⟩, hrun, hmem⟩ := htest
  have hsession := ((Session.start.openText "ab").calls (calls_iff.2 ⟨4, hrun⟩)).push
    ⟨9, .text "?", .start, 9⟩
  obtain ⟨hbottom, -, -, -, hstrict, -⟩ := session_secure (.inl ⟨_, hgrammar⟩) hsession
  exact ⟨grammar, _, _, hgrammar, hsession, hmem, rfl, hbottom, hstrict⟩

end GoldTables.Parser

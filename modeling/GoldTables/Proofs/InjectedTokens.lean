import GoldTables.Proofs.Sessions
import GoldTables.Proofs.TokenProgress

/-!
# Injected tokens are parsed like tokens that are read

A parser gets its tokens from its lexer one by one, or it finds them in its
queue because they were put there before it started. The two are compared
state by state: the second parser is the first one with the tokens that are
still to be read behind those that wait. What decides about a step is the
lookahead and the stack, so both take the same steps, except that the second
one has nothing to do where the first one reads a token.

Results:
* `Lexer.tokenize_eq_some_iff`: `tokenize` finds the end token if it comes at all.
* `step_supplied`: the two parsers step together.
* `parseTree_foldl_enqueue`: the tokens of a text, put into the queue, are parsed like the text.
-/

namespace GoldTables

namespace Lexer

variable {grammar : Grammar} {lexer next after : Lexer} {token : Token}
  {tokens done : List Token} {found : List Token × Lexer} {n m : Nat}

/-! ## Tokens up to the end token -/

theorem tokensUpTo_of_nextToken? (hnext : lexer.nextToken? grammar = some (token, next)) :
    tokensUpTo grammar (n + 1) done lexer =
      if token.symbol = grammar.endSymbol then some ((token :: done).reverse, next)
      else tokensUpTo grammar n (token :: done) next := by
  rw [tokensUpTo, hnext]
  rfl

/-- A token is read first. -/
theorem exists_nextToken_of_tokensUpTo (h : tokensUpTo grammar (n + 1) done lexer = some found) :
    ∃ token next, lexer.nextToken? grammar = some (token, next) := by
  obtain ⟨⟨token, next⟩, hnext, -⟩ := Option.bind_eq_some_iff.1 h
  exact ⟨token, next, hnext⟩

/-- Only the end token can be read again and again before `tokensUpTo` finds the end. -/
theorem symbol_of_repeats (hrepeats : lexer.nextToken? grammar = some (token, lexer))
    (h : tokensUpTo grammar n done lexer = some found) : token.symbol = grammar.endSymbol := by
  induction n generalizing done with
  | zero => cases h
  | succ n ih =>
    rw [tokensUpTo_of_nextToken? hrepeats] at h
    split at h
    · next hend => exact hend
    · exact ih h

/-- In front of the end token, a token leaves less to read. -/
theorem progress_of_tokensUpTo (hnext : lexer.nextToken? grammar = some (token, next))
    (hne : token.symbol ≠ grammar.endSymbol)
    (h : tokensUpTo grammar n done next = some found) :
    next.inGroup = false ∧ next.work < lexer.work := by
  rcases nextToken?_progress hnext with ⟨houtside, hend | hwork⟩ | hrepeats
  · exact absurd hend hne
  · exact ⟨houtside, hwork⟩
  · exact absurd (symbol_of_repeats hrepeats h) hne

theorem tokensUpTo_of_work (hwork : lexer.work < m)
    (h : tokensUpTo grammar n done lexer = some found) :
    tokensUpTo grammar m done lexer = some found := by
  induction n generalizing m done lexer with
  | zero => cases h
  | succ n ih =>
    obtain ⟨m, rfl⟩ : ∃ k, m = k + 1 := ⟨m - 1, by omega⟩
    obtain ⟨token, next, hnext⟩ := exists_nextToken_of_tokensUpTo h
    rw [tokensUpTo_of_nextToken? hnext] at h ⊢
    split at h
    · next hend => rw [if_pos hend, h]
    · next hne =>
      have hless := (progress_of_tokensUpTo hnext hne h).2
      rw [if_neg hne]
      exact ih (by omega) h

/-- The bound of `tokenize` is no restriction. -/
theorem tokenize_eq_some_iff :
    lexer.tokenize grammar = some found ↔ ∃ n, tokensUpTo grammar n [] lexer = some found :=
  ⟨fun h => ⟨_, h⟩, fun ⟨_, h⟩ => tokensUpTo_of_work (by omega) h⟩

/-- The lexer reads these tokens next, and no group is open behind any of them. -/
def Supplies (grammar : Grammar) (lexer : Lexer) (tokens : List Token) : Prop :=
  lexer.readings grammar tokens.length = tokens.map (Reading.mk · false)

theorem supplies_cons :
    Supplies grammar lexer (token :: tokens) ↔
      (lexer.nextToken grammar).1 = token ∧ (lexer.nextToken grammar).2.inGroup = false ∧
        Supplies grammar (lexer.nextToken grammar).2 tokens := by
  rw [Supplies, List.length_cons, readings, List.map_cons, List.cons_eq_cons, Reading.mk.injEq,
    and_assoc]
  rfl

theorem exists_supplies (h : tokensUpTo grammar n done lexer = some (tokens, after))
    (houtside : after.inGroup = false) :
    ∃ read, tokens = done.reverse ++ read ∧ Supplies grammar lexer read := by
  induction n generalizing done lexer with
  | zero => cases h
  | succ n ih =>
    obtain ⟨token, next, hnext⟩ := exists_nextToken_of_tokensUpTo h
    rw [tokensUpTo_of_nextToken? hnext] at h
    split at h
    · cases h
      refine ⟨[token], by simp, ?_⟩
      rw [supplies_cons, nextToken_of_nextToken? hnext]
      exact ⟨rfl, houtside, rfl⟩
    · next hne =>
      obtain ⟨read, rfl, hread⟩ := ih h
      refine ⟨token :: read, by simp, ?_⟩
      rw [supplies_cons, nextToken_of_nextToken? hnext]
      exact ⟨rfl, (progress_of_tokensUpTo hnext hne h).1, hread⟩

/-- If no group is open in the end, none is open behind any of the tokens. -/
theorem supplies_of_tokenize (h : lexer.tokenize grammar = some (tokens, after))
    (houtside : after.inGroup = false) : Supplies grammar lexer tokens := by
  obtain ⟨read, rfl, hread⟩ := exists_supplies h houtside
  exact hread

end Lexer

namespace Parser

variable {grammar : Grammar} {parser next last : Parser} {idle : Lexer} {tokens : List Token}

/-! ## Parsers that step together -/

/-- The parser with tokens put behind those that wait, and over another lexer. -/
def supplied (idle : Lexer) (tokens : List Token) (parser : Parser) : Parser :=
  { parser with lexer := idle, input := parser.input ++ tokens }

theorem foldl_enqueue (tokens : List Token) (parser : Parser) :
    tokens.foldl enqueue parser = { parser with input := parser.input ++ tokens } := by
  induction tokens generalizing parser with
  | nil => rw [List.append_nil]; rfl
  | cons token tokens ih =>
    rw [List.foldl_cons, ih, enqueue, List.append_assoc]
    rfl

theorem Handles.supplied (hidle : idle.inGroup = false) (tokens : List Token) {lookahead : Token}
    {rest : List Token} (h : Handles grammar parser lookahead rest) :
    Handles grammar (parser.supplied idle tokens) lookahead (rest ++ tokens) :=
  ⟨h.opened, congrArg (· ++ tokens) h.input, hidle, h.kind⟩

theorem Reduces.supplied (hidle : idle.inGroup = false) (tokens : List Token) {lookahead : Token}
    {rest : List Token} {index : UInt16} {production : Production}
    (h : Reduces grammar parser lookahead rest index production) :
    Reduces grammar (parser.supplied idle tokens) lookahead (rest ++ tokens) index production :=
  ⟨h.toHandles.supplied hidle tokens, h.action, h.production⟩

/-- Outside of groups, a step that reads no token is also taken with more tokens behind those that
    wait, and with another lexer, unless the parser is stuck. -/
theorem step_supplied {message : Option Message} (hidle : idle.inGroup = false)
    (tokens : List Token) (houtside : parser.lexer.inGroup = false)
    (hread : message ≠ some .tokenRead) (hmoves : message = none → next ≠ parser)
    (hstep : Step grammar parser message next) :
    Step grammar (parser.supplied idle tokens) message (next.supplied idle tokens) := by
  have hmore : ∀ {lookahead rest}, parser.input = lookahead :: rest →
      (parser.supplied idle tokens).input = lookahead :: (rest ++ tokens) :=
    fun h => congrArg (· ++ tokens) h
  cases hstep with
  | notLoaded hopened => exact .notLoaded hopened
  | tokenRead => exact absurd rfl hread
  | stuck => exact absurd rfl (hmoves rfl)
  | groupError hopened hinput hgroup =>
    rw [houtside] at hgroup
    cases hgroup
  | unknownSymbol hopened hinput hgroup hkind =>
    exact .unknownSymbol hopened (hmore hinput) hidle hkind
  | noise hopened hinput hgroup hkind => exact .noise hopened (hmore hinput) hidle hkind
  | lexicalError hopened hinput hgroup hkind =>
    exact .lexicalError hopened (hmore hinput) hidle hkind
  | syntaxError hhandles haction => exact .syntaxError (hhandles.supplied hidle tokens) haction
  | accept hhandles haction => exact .accept (hhandles.supplied hidle tokens) haction
  | shift hhandles haction => exact .shift (hhandles.supplied hidle tokens) haction
  | strayGoto hhandles haction => exact .strayGoto (hhandles.supplied hidle tokens) haction
  | unknownProduction hhandles haction hproduction =>
    exact .unknownProduction (hhandles.supplied hidle tokens) haction hproduction
  | underflow hreduces hstack => exact .underflow (hreduces.supplied hidle tokens) hstack
  | rename hreduces htrim hstack hgoto =>
    exact .rename (hreduces.supplied hidle tokens) htrim hstack hgoto
  | renameLost hreduces htrim hstack hgoto =>
    exact .renameLost (hreduces.supplied hidle tokens) htrim hstack hgoto
  | reduction hreduces htrim hstack hlength hgoto =>
    exact .reduction (hreduces.supplied hidle tokens) htrim hstack hlength hgoto
  | reductionLost hreduces htrim hstack hlength hgoto =>
    exact .reductionLost (hreduces.supplied hidle tokens) htrim hstack hlength hgoto

/-- Only a step that reads a token moves the lexer. -/
theorem lexer_of_step {message : Option Message} (hread : message ≠ some .tokenRead)
    (hstep : Step grammar parser message next) : next.lexer = parser.lexer := by
  cases hstep with
  | tokenRead => exact absurd rfl hread
  | _ => rfl

/-- A lookahead waits behind every message, unless there is no input. -/
theorem input_ne_nil {message : Message} (hstep : Step grammar parser (some message) next) :
    next.input ≠ [] ∨ message = .notLoaded := by
  cases hstep with
  | notLoaded => exact .inr rfl
  | tokenRead => exact .inl (List.cons_ne_nil _ _)
  | groupError _ hinput | unknownSymbol _ hinput | lexicalError _ hinput =>
    exact .inl (ne_of_eq_of_ne hinput (List.cons_ne_nil _ _))
  | syntaxError h | accept h | strayGoto h | unknownProduction h =>
    exact .inl (ne_of_eq_of_ne h.input (List.cons_ne_nil _ _))
  | underflow h | renameLost h | reduction h | reductionLost h =>
    exact .inl (ne_of_eq_of_ne h.input (List.cons_ne_nil _ _))

/-! ## Up to the next message -/

theorem Silent.supplied (hidle : idle.inGroup = false) (tokens : List Token)
    (hsilent : Silent grammar parser last) (houtside : parser.lexer.inGroup = false) :
    Silent grammar (parser.supplied idle tokens) (last.supplied idle tokens) ∧
      last.lexer = parser.lexer := by
  induction hsilent with
  | refl => exact ⟨.refl _, rfl⟩
  | @step parser next last hstep _ ih =>
    have hstep := step_eq_iff.1 hstep
    have hread : (none : Option Message) ≠ some .tokenRead := nofun
    have hlexer := lexer_of_step hread hstep
    obtain ⟨hsilent, hlast⟩ := ih (by rw [hlexer]; exact houtside)
    refine ⟨?_, hlast.trans hlexer⟩
    by_cases hmoves : next = parser
    · rw [hmoves] at hsilent
      exact hsilent
    · exact .step (step_supplied hidle tokens houtside hread (fun _ => hmoves) hstep).step_eq
        hsilent

/-- The parser has no group open, and its lexer reads these tokens next. -/
structure Awaits (grammar : Grammar) (tokens : List Token) (parser : Parser) : Prop where
  outside : parser.lexer.inGroup = false
  supplies : Lexer.Supplies grammar parser.lexer tokens

/-- Where one parser reads a token, the other one has it already. -/
theorem Awaits.parse_tokenRead (hidle : idle.inGroup = false) {token : Token}
    (h : Awaits grammar (token :: tokens) parser)
    (hparse : parser.parse grammar = some (.tokenRead, next)) :
    (parser.supplied idle (token :: tokens)).parse grammar =
        (next.supplied idle tokens).parse grammar ∧
      Awaits grammar tokens next := by
  obtain ⟨before, hsilent, hstep⟩ := parse_eq_some_iff.1 hparse
  obtain ⟨hsupplied, hlexer⟩ := hsilent.supplied hidle (token :: tokens) h.outside
  obtain ⟨htoken, houtside, htokens⟩ := Lexer.supplies_cons.1 h.supplies
  rw [← hlexer] at htoken houtside htokens
  rw [hsupplied.parse_eq]
  cases step_eq_iff.1 hstep with
  | tokenRead hopened hinput hread =>
    refine ⟨?_, houtside, htokens⟩
    rw [supplied, supplied, hinput, htoken]
    rfl

/-- Any other message is reported by both. -/
theorem Awaits.parse_message (hidle : idle.inGroup = false) {message : Message}
    (h : Awaits grammar tokens parser) (hread : message ≠ .tokenRead)
    (hparse : parser.parse grammar = some (message, next)) :
    (parser.supplied idle tokens).parse grammar = some (message, next.supplied idle tokens) ∧
      Awaits grammar tokens next := by
  obtain ⟨before, hsilent, hstep⟩ := parse_eq_some_iff.1 hparse
  have hstep := step_eq_iff.1 hstep
  have hread : some message ≠ some .tokenRead := fun heq => hread (Option.some.inj heq)
  obtain ⟨hsupplied, hlexer⟩ := hsilent.supplied hidle tokens h.outside
  have houtside : before.lexer.inGroup = false := by rw [hlexer]; exact h.outside
  have hnext : next.lexer = parser.lexer := (lexer_of_step hread hstep).trans hlexer
  refine ⟨?_, by rw [hnext]; exact h.outside, by rw [hnext]; exact h.supplies⟩
  rw [hsupplied.parse_eq]
  exact parse_of_message (step_supplied hidle tokens houtside hread nofun hstep).step_eq

/-! ## Up to the end of the parse -/

/-- What is answered to a final message depends on the stack and on the lookahead. -/
theorem answer_supplied {message : Message} (hinput : parser.input ≠ [] ∨ message = .notLoaded) :
    ((parser.supplied idle tokens).answer grammar message).1 =
      (parser.answer grammar message).1 := by
  have hstack : (parser.supplied idle tokens).stack = parser.stack := rfl
  have herror : (parser.supplied idle tokens).errorOf grammar message =
      parser.errorOf grammar message := by
    rcases hinput with hinput | rfl
    · have hcurrent : (parser.supplied idle tokens).currentToken? = parser.currentToken? :=
        List.head?_append_of_ne_nil _ hinput
      cases message <;> simp only [errorOf, hcurrent] <;> rfl
    · rfl
  unfold answer
  split
  · rw [hstack]
    cases parser.stack <;> rfl
  · rw [herror]

/-- The messages other than that a token was read. -/
def reports (messages : List Message) : List Message := messages.filter (· ≠ .tokenRead)

theorem reports_cons {message : Message} (hread : message ≠ .tokenRead)
    (messages : List Message) : reports (message :: messages) = message :: reports messages :=
  List.filter_cons_of_pos (by simpa using hread)

theorem reports_reverse (messages : List Message) :
    reports messages.reverse = (reports messages).reverse :=
  List.filter_reverse

section

variable {limit : Nat} {done messages : List Message} {message : Message}
  {result : Except ParseError Token}

/-- The last message is the same, and the answer to it. -/
theorem Awaits.ends_supplied (hidle : idle.inGroup = false) (h : Awaits grammar tokens parser)
    (hread : message ≠ .tokenRead) (hfinal : message.isFinal = true)
    (hparse : parser.parse grammar = some (message, next)) (done : List Message) :
    ∃ last behind,
      drive grammar 1 (reports done) (parser.supplied idle tokens) =
        some (reports (message :: done).reverse, last) ∧
      parseTree grammar 1 (parser.supplied idle tokens) =
        some ((next.answer grammar message).1, behind) := by
  obtain ⟨hsame, -⟩ := h.parse_message hidle hread hparse
  obtain ⟨before, -, hstep⟩ := parse_eq_some_iff.1 hparse
  refine ⟨next.supplied idle tokens, ((next.supplied idle tokens).answer grammar message).2,
    ?_, ?_⟩
  · rw [drive_of_parse 0 _ hsame, if_pos hfinal, reports_reverse, reports_cons hread]
  · rw [parseTree_of_parse 0 hsame, if_pos hfinal,
      ← answer_supplied (input_ne_nil (step_eq_iff.1 hstep))]

/-- A parser that has the tokens already reports the same messages, except for those that a token
    was read, and gives the same answer. -/
theorem Awaits.parseTree_supplied (hidle : idle.inGroup = false)
    (h : Awaits grammar tokens parser)
    (hdrive : drive grammar limit done parser = some (messages, last))
    (htree : parseTree grammar limit parser = some (result, next))
    (hcount : messages.count .tokenRead ≤ done.count .tokenRead + tokens.length) :
    ∃ fewer last next,
      drive grammar fewer (reports done) (parser.supplied idle tokens) =
        some (reports messages, last) ∧
      parseTree grammar fewer (parser.supplied idle tokens) = some (result, next) := by
  induction limit generalizing parser tokens done with
  | zero => cases htree
  | succ limit ih =>
    obtain ⟨⟨message, behind⟩, hparse, -⟩ := Option.bind_eq_some_iff.1 htree
    rw [drive_of_parse limit done hparse] at hdrive
    rw [parseTree_of_parse limit hparse] at htree
    by_cases hread : message = .tokenRead
    · subst hread
      obtain ⟨more, -, rfl, -⟩ := exists_calls_of_parseTree hdrive htree
      rw [List.count_append, List.count_reverse, List.count_cons_self] at hcount
      cases tokens with
      | nil =>
        rw [List.length_nil] at hcount
        omega
      | cons token tokens =>
        obtain ⟨hsame, hbehind⟩ := h.parse_tokenRead hidle hparse
        rw [List.length_cons] at hcount
        obtain ⟨fewer, last, next, hdrive, htree⟩ := ih hbehind hdrive htree (by
          rw [List.count_append, List.count_reverse, List.count_cons_self]
          omega)
        -- a token that waits already makes no message
        cases fewer with
        | zero => cases htree
        | succ fewer =>
          rw [drive, ← hsame] at hdrive
          rw [parseTree, ← hsame] at htree
          exact ⟨fewer + 1, last, next, hdrive, htree⟩
    · cases hfinal : message.isFinal with
      | true =>
        rw [if_pos hfinal] at hdrive htree
        cases hdrive
        obtain ⟨last, behind, hdrive, htree'⟩ := h.ends_supplied hidle hread hfinal hparse done
        rw [Option.some.inj htree] at htree'
        exact ⟨1, last, behind, hdrive, htree'⟩
      | false =>
        obtain ⟨hsame, hbehind⟩ := h.parse_message hidle hread hparse
        have hgoes : ¬message.isFinal = true := Bool.eq_false_iff.1 hfinal
        rw [if_neg hgoes] at hdrive htree
        obtain ⟨fewer, last, next, hdrive, htree⟩ := ih hbehind hdrive htree (by
          rw [List.count_cons_of_ne hread]
          exact hcount)
        refine ⟨fewer + 1, last, next, ?_, ?_⟩
        · rw [drive_of_parse fewer _ hsame, if_neg hgoes, ← reports_cons hread]
          exact hdrive
        · rw [parseTree_of_parse fewer hsame, if_neg hgoes]
          exact htree

/-- If no group is open behind the tokens of a text, and the parser reads no more than these tokens
    from the text until it answers, then a parser with the same flag gives the same answer when it
    finds the tokens in its queue and has no text. It reports the same messages, except for those
    that a token was read. -/
theorem parseTree_foldl_enqueue (parser other : Parser) (trim : Bool) (text : String)
    {after : Lexer}
    (htokens : (Lexer.openText text).tokenize grammar = some (tokens, after))
    (houtside : after.inGroup = false)
    (hdrive : drive grammar limit [] ((parser.setTrim trim).openText grammar text) =
      some (messages, last))
    (htree : parseTree grammar limit ((parser.setTrim trim).openText grammar text) =
      some (result, next))
    (hcount : messages.count .tokenRead ≤ tokens.length) :
    ∃ fewer last next,
      drive grammar fewer [] (tokens.foldl enqueue ((other.setTrim trim).openText grammar "")) =
        some (messages.filter (· ≠ .tokenRead), last) ∧
      parseTree grammar fewer
        (tokens.foldl enqueue ((other.setTrim trim).openText grammar "")) =
          some (result, next) := by
  have hawaits : Awaits grammar tokens ((parser.setTrim trim).openText grammar text) :=
    ⟨rfl, Lexer.supplies_of_tokenize htokens houtside⟩
  have hqueue : tokens.foldl enqueue ((other.setTrim trim).openText grammar "") =
      ((parser.setTrim trim).openText grammar text).supplied (.openText "") tokens :=
    foldl_enqueue tokens _
  rw [hqueue]
  exact hawaits.parseTree_supplied rfl hdrive htree (by simpa using hcount)

theorem parseTree_foldl_enqueue_sampleFile :
    ∃ grammar tokens after root fewer last next, Grammar.ofBytes sampleFile = .ok grammar ∧
      (Lexer.openText " a ").tokenize grammar = some (tokens, after) ∧ tokens.length = 4 ∧
      drive grammar fewer []
        (tokens.foldl enqueue (((start grammar).setTrim false).openText grammar "")) =
          some ([.reduction, .accept], last) ∧
      parseTree grammar fewer
        (tokens.foldl enqueue (((start grammar).setTrim false).openText grammar "")) =
          some (.ok root, next) ∧
      root.leaves.map (·.payload.text?) = [some "a"] := by
  have hpasses : Grammar.passes sampleFile (fun grammar =>
      let opened := ((start grammar).setTrim false).openText grammar " a "
      ((Lexer.openText " a ").tokenize grammar).any fun found =>
        found.2.inGroup = false && found.1.length = 4 &&
          (drive grammar 7 [] opened).any fun run =>
            run.1.count .tokenRead = 4 && run.1.filter (· ≠ .tokenRead) = [.reduction, .accept] &&
              (parseTree grammar 7 opened).any fun answered =>
                answered.1.toOption.any fun root =>
                  root.leaves.map (·.payload.text?) = [some "a"]) = true := by
    decide +kernel
  obtain ⟨grammar, hgrammar, htest⟩ := Grammar.exists_of_passes hpasses
  simp only [Bool.and_eq_true, Option.any_eq_true, decide_eq_true_eq] at htest
  obtain ⟨⟨tokens, after⟩, htokens, ⟨houtside, hlength⟩, ⟨messages, last⟩, hdrive,
    ⟨hcount, hreports⟩, ⟨answer, next⟩, htree, root, hroot, hleaves⟩ := htest
  obtain rfl : answer = .ok root := by
    cases answer with
    | error fault => cases hroot
    | ok tree => rw [Option.some.inj hroot]
  obtain ⟨fewer, last, next, hqueued, hanswer⟩ := parseTree_foldl_enqueue (start grammar)
    (start grammar) false " a " htokens houtside hdrive htree
    (Nat.le_of_eq (hcount.trans hlength.symm))
  rw [hreports] at hqueued
  exact ⟨grammar, tokens, after, root, fewer, last, next, hgrammar, htokens, hlength, hqueued,
    hanswer, hleaves⟩

end

end Parser

end GoldTables

import GoldTables.Proofs.FinalMessages
import GoldTables.Proofs.LoopBounds
import GoldTables.Proofs.ParsedRoots
import GoldTables.Proofs.StackPaths

/-!
# What a finished parse leaves behind

A parser without an input is blank: it is as one that was just made, but for
its flag and the number of characters that were drawn. `parseTree` leaves a
blank parser where the input is accepted. After every other final message it
drops nothing. The parser stays open then, the token that it stopped at is
still its lookahead, and a call of `parse` goes on from there.

Whatever is left, it is gone when the next text is opened.

Results:
* `blank_of_closed`: in every session, a parser without an input is blank but for its queue.
* `exists_parse_of_parseTree`: the final message that `parseTree` answers to.
* `blank_of_parseTree`: when `parseTree` leaves a blank parser, and what it leaves otherwise.
-/

namespace GoldTables.Parser

variable {grammar : Grammar} {parser next : Parser} {message : Message} {messages : List Message}

/-! ## Blank parsers -/

/-- The parser has no input, and nothing is left of an earlier one. -/
structure Blank (grammar : Grammar) (parser : Parser) : Prop where
  opened : parser.opened = false
  input : parser.input = []
  stack : parser.stack = [bottom grammar]
  lexer : parser.lexer = { Lexer.empty with drawn := parser.lexer.drawn }
  lrState : parser.lrState = grammar.lrInitial
  expected : parser.expected = []
  position : parser.position = .start

theorem blank_restart (parser : Parser) : Blank grammar (parser.restart grammar) :=
  ⟨rfl, rfl, rfl, rfl, rfl, rfl, rfl⟩

/-- A parser on a text that was just opened is the same whatever was left of an earlier one. -/
theorem openText_eq_start (parser : Parser) (text : String) :
    parser.openText grammar text =
      ((start grammar).setTrim parser.trim).openText grammar text := rfl

/-- Without an input nothing but the queue can be filled. -/
theorem Blank.kept :
    Kept grammar (fun _ => True) fun parser =>
      parser.opened = false → Blank grammar { parser with input := [] } where
  restart parser _ := blank_restart parser
  openText _ _ hclosed := nomatch hclosed
  setTrim _ _ h hclosed :=
    have hblank := h hclosed
    ⟨hblank.opened, rfl, hblank.stack, hblank.lexer, hblank.lrState, hblank.expected,
      hblank.position⟩
  step parser message next h hstep _ hclosed := by
    obtain rfl := hstep.eq_of_closed hclosed
    exact h hclosed
  input _ _ h := h
  payload parser top below _ h hstack htop hclosed := by
    -- the token at the bottom lies on no other, and is no reduction
    have honly : top :: below = [bottom grammar] := hstack.symm.trans (h hclosed).stack
    cases honly
    rcases htop with hne | hsome
    · exact absurd rfl hne
    · cases hsome

/-- In every session, a parser without an input is blank but for the tokens that wait. -/
theorem blank_of_closed (h : Session grammar messages parser) (hclosed : parser.opened = false) :
    Blank grammar { parser with input := [] } :=
  h.invariant Blank.kept (fun _ _ => trivial) hclosed

/-! ## Final messages -/

/-- A parser without an input reports just that. -/
theorem Step.notLoaded_iff (h : Step grammar parser (some message) next) :
    message = .notLoaded ↔ next.opened = false := by
  constructor
  · rintro rfl
    cases h with
    | notLoaded hclosed => exact hclosed
  · intro hclosed
    obtain rfl := h.eq_of_closed hclosed
    have hstays : Step grammar next (some .notLoaded) next := .notLoaded hclosed
    exact Option.some.inj (Prod.mk.inj (h.step_eq.symm.trans hstays.step_eq)).1

/-- Behind any other final message the lookahead waits where the parser looked. -/
theorem Step.exists_lookahead (h : Step grammar parser (some message) next)
    (hfinal : message.isFinal = true) (hopened : next.opened = true) :
    ∃ lookahead rest, next.input = lookahead :: rest ∧ next.position = lookahead.position := by
  cases h with
  | notLoaded hclosed =>
    rw [hopened] at hclosed
    cases hclosed
  | tokenRead => cases hfinal
  | reduction => cases hfinal
  | groupError _ hinput => exact ⟨_, _, hinput, rfl⟩
  | unknownSymbol _ hinput => exact ⟨_, _, hinput, rfl⟩
  | lexicalError _ hinput => exact ⟨_, _, hinput, rfl⟩
  | syntaxError h => exact ⟨_, _, h.input, rfl⟩
  | accept h => exact ⟨_, _, h.input, rfl⟩
  | strayGoto h => exact ⟨_, _, h.input, rfl⟩
  | unknownProduction h => exact ⟨_, _, h.input, rfl⟩
  | underflow h => exact ⟨_, _, h.input, rfl⟩
  | renameLost h => exact ⟨_, _, h.input, rfl⟩
  | reductionLost h => exact ⟨_, _, h.input, rfl⟩

theorem errorOf_eq_notLoaded :
    parser.errorOf grammar message = .notLoaded ↔ message = .notLoaded := by
  cases message <;> simp [errorOf]

/-! ## Calls -/

theorem notLoaded_iff_of_parse (h : parser.parse grammar = some (message, next)) :
    message = .notLoaded ↔ next.opened = false := by
  obtain ⟨last, -, hlast⟩ := parse_eq_some_iff.1 h
  exact (step_eq_iff.1 hlast).notLoaded_iff

/-- A final message is reported again by the parser behind it. -/
theorem parse_again (h : parser.parse grammar = some (message, next))
    (hfinal : message.isFinal = true) (hno : message ≠ .internalError) :
    next.parse grammar = some (message, next) := by
  obtain ⟨last, -, hlast⟩ := parse_eq_some_iff.1 h
  exact parse_of_message ((step_eq_iff.1 hlast).repeats hfinal hno).step_eq

theorem exists_lookahead_of_parse (h : parser.parse grammar = some (message, next))
    (hfinal : message.isFinal = true) (hopened : next.opened = true) :
    ∃ lookahead rest, next.input = lookahead :: rest ∧ next.position = lookahead.position := by
  obtain ⟨last, -, hlast⟩ := parse_eq_some_iff.1 h
  exact (step_eq_iff.1 hlast).exists_lookahead hfinal hopened

theorem parse_eq_notLoaded_iff :
    parser.parse grammar = some (.notLoaded, parser) ↔ parser.opened = false :=
  ⟨fun h => (notLoaded_iff_of_parse h).1 rfl,
    fun hclosed => parse_of_message (Step.notLoaded hclosed).step_eq⟩

theorem Calls.exists_parse (h : Calls grammar parser (messages ++ [message]) next) :
    ∃ current, Calls grammar parser messages current ∧
      current.parse grammar = some (message, next) := by
  generalize hall : messages ++ [message] = all at h
  cases h with
  | nil => exact absurd hall (List.concat_ne_nil _ _)
  | call hcalls hparse =>
    obtain ⟨rfl, hmessage⟩ := List.append_inj' hall rfl
    cases hmessage
    exact ⟨_, hcalls, hparse⟩

/-- Calls that lead to a parser without an input have changed nothing. -/
theorem Calls.eq_of_closed (h : Calls grammar parser messages next)
    (hclosed : next.opened = false) : next = parser := by
  have hkeeps : Keeps grammar (fun _ => True)
      fun current => current.opened = false → current = parser := by
    intro current message behind hsame hstep _ hbehind
    obtain rfl := hstep.eq_of_closed hbehind
    exact hsame hbehind
  exact h.kept hkeeps (fun _ _ => trivial) (fun _ => rfl) hclosed

theorem Calls.trim_eq (h : Calls grammar parser messages next) : next.trim = parser.trim := by
  have hkeeps : Keeps grammar (fun _ => True) fun current => current.trim = parser.trim :=
    fun _ _ _ hsame hstep _ => hstep.trim_eq.trans hsame
  exact h.kept hkeeps (fun _ _ => trivial) rfl

/-- Calls alone leave a blank parser only where there was one. -/
theorem Session.blank_iff {reported : List Message} (h : Session grammar messages parser)
    (hcalls : Calls grammar parser reported next) :
    Blank grammar next ↔ next.opened = false ∧ parser.input = [] := by
  constructor
  · intro hblank
    obtain rfl := hcalls.eq_of_closed hblank.opened
    exact ⟨hblank.opened, hblank.input⟩
  · rintro ⟨hclosed, hempty⟩
    obtain rfl := hcalls.eq_of_closed hclosed
    have hblank := blank_of_closed h hclosed
    rw [← hempty] at hblank
    exact hblank

/-- There is a token on the stack in every session. -/
theorem Session.stack_ne (h : Session grammar messages parser) : parser.stack ≠ [] := by
  obtain ⟨opened, hstack, hreached, -⟩ := h.invariant InParse.kept fun _ _ => trivial
  exact (growing_of_reached hstack hreached).stack_ne

/-! ## The end of a parse -/

section

variable {limit : Nat} {answer : Except ParseError Token}

/-- `parseTree` calls `parse` up to a final message, and answers to it. -/
theorem exists_parse_of_parseTree (hanswer : parseTree grammar limit parser = some (answer, next)) :
    ∃ reported message last, Calls grammar parser (reported ++ [message]) last ∧
      message.isFinal = true ∧ last.answer grammar message = (answer, next) := by
  obtain ⟨reported, message, last, hdrive, hfinal, hreply⟩ := exists_drive_of_parseTree [] hanswer
  obtain ⟨_, _, hcalled, hcalls, -⟩ := exists_calls_of_parseTree hdrive hanswer
  rw [List.append_assoc] at hcalled
  obtain rfl := List.append_cancel_left hcalled
  exact ⟨reported, message, last, hcalls, hfinal, hreply⟩

/-- In every session, `parseTree` leaves a blank parser where it answers with a tree, and where
    there was no input, if no token waits. The next call of `parse` finds that there is no input
    after these two answers only. After any other error the parser is as the final message left it:
    it is open, the token that it stopped at waits to be parsed, and the next call of `parse`
    reports the same message, unless it was an internal error. A text that is opened next finds
    nothing of all this. -/
theorem blank_of_parseTree (hsession : Session grammar messages parser)
    (hanswer : parseTree grammar limit parser = some (answer, next)) :
    (Blank grammar next ↔
        (∃ root, answer = .ok root) ∨ answer = .error .notLoaded ∧ parser.input = []) ∧
      (next.parse grammar = some (.notLoaded, next) ↔
        (∃ root, answer = .ok root) ∨ answer = .error .notLoaded) ∧
      (∀ fault, answer = .error fault → fault ≠ .notLoaded → next.opened = true ∧
        ∃ reported message lookahead rest, Calls grammar parser (reported ++ [message]) next ∧
          fault = next.errorOf grammar message ∧ next.input = lookahead :: rest ∧
          next.position = lookahead.position ∧
          (message ≠ .internalError → next.parse grammar = some (message, next))) ∧
      ∀ text, next.openText grammar text =
        ((start grammar).setTrim parser.trim).openText grammar text := by
  obtain ⟨reported, message, last, hcalls, hfinal, hreply⟩ := exists_parse_of_parseTree hanswer
  by_cases haccept : message = .accept
  · subst haccept
    obtain ⟨root, below, hstack⟩ := List.exists_cons_of_ne_nil (hsession.calls hcalls).stack_ne
    rw [answer_accept hstack] at hreply
    cases hreply
    have hblank : Blank grammar (last.restart grammar) := blank_restart last
    refine ⟨iff_of_true hblank (.inl ⟨root, rfl⟩),
      iff_of_true (parse_eq_notLoaded_iff.2 hblank.opened) (.inl ⟨root, rfl⟩), nofun,
      fun text => ?_⟩
    rw [openText_eq_start, show (last.restart grammar).trim = last.trim from rfl, hcalls.trim_eq]
  · rw [Parser.answer, if_neg haccept] at hreply
    cases hreply
    obtain ⟨current, -, hparse⟩ := hcalls.exists_parse
    have hfault : next.errorOf grammar message = .notLoaded ↔ next.opened = false :=
      errorOf_eq_notLoaded.trans (notLoaded_iff_of_parse hparse)
    refine ⟨?_, ?_, ?_, fun text => ?_⟩
    · simpa [hfault] using hsession.blank_iff hcalls
    · simpa [hfault] using parse_eq_notLoaded_iff
    · rintro _ ⟨⟩ hloaded
      have hopened : next.opened = true := by simpa [hfault] using hloaded
      obtain ⟨lookahead, rest, hinput, hposition⟩ :=
        exists_lookahead_of_parse hparse hfinal hopened
      exact ⟨hopened, reported, message, lookahead, rest, hcalls, rfl, hinput, hposition,
        parse_again hparse hfinal⟩
    · rw [openText_eq_start, hcalls.trim_eq]

/-- The end of the input was read inside a comment, and the parser stays inside it. -/
theorem blank_of_parseTree_nestedFile :
    ∃ grammar next, Grammar.ofBytes nestedFile = .ok grammar ∧
      Session grammar [] ((start grammar).openText grammar "(x") ∧
      parseTree grammar 2 ((start grammar).openText grammar "(x") =
        some (.error (.group ⟨0, 2⟩), next) ∧
      ¬Blank grammar next ∧ next.parse grammar ≠ some (.notLoaded, next) ∧ next.lexer.depth = 1 ∧
      next.opened = true ∧ next.openText grammar "()" = (start grammar).openText grammar "()" := by
  have hpasses : Grammar.passes nestedFile (fun grammar =>
      (parseTree grammar 2 ((start grammar).openText grammar "(x")).any fun found =>
        found.2.lexer.depth = 1 &&
          match found.1 with
          | .ok _ => false
          | .error fault => fault = .group ⟨0, 2⟩) = true := by decide +kernel
  obtain ⟨grammar, hgrammar, htest⟩ := Grammar.exists_of_passes hpasses
  obtain ⟨⟨answer, next⟩, hanswer, htest⟩ := (Option.any_eq_true _ _).1 htest
  obtain ⟨hdepth, hfault⟩ := Bool.and_eq_true_iff.1 htest
  cases answer with
  | ok => cases hfault
  | error fault =>
    obtain rfl : fault = .group ⟨0, 2⟩ := of_decide_eq_true hfault
    have hsession : Session grammar [] ((start grammar).openText grammar "(x") :=
      Session.start.openText "(x"
    obtain ⟨hblank, hparse, hstays, hopen⟩ := blank_of_parseTree hsession hanswer
    exact ⟨grammar, next, hgrammar, hsession, hanswer, mt hblank.1 (by simp),
      mt hparse.1 (by simp), of_decide_eq_true hdepth, (hstays _ rfl nofun).1, hopen "()"⟩

end

end GoldTables.Parser

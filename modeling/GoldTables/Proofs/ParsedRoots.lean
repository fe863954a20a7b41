import GoldTables.Proofs.StackPaths
import GoldTables.Proofs.StreamingEvaluation
import Mathlib.Logic.Relation

/-!
# Where the root of a tree comes from

The answer to an accepted input is the token on top of the stack. Whatever a
consumer does with a parser, a token on the stack was shifted or built since
the input was opened, except for the one at the bottom. But nothing keeps the
tables from accepting an input before any token was parsed, and then the token
at the bottom is the answer, although it is no part of the input.

Results:
* `growing_of_reached`: the tokens on the stack were shifted or built in this parse, up to the
  bottom.
* `Parsed.lies`: the one at the bottom was not.
* `root_of_parseTree`: the root of an accepted input was shifted or built in this parse if a token
  was parsed, and is the token at the bottom if not.
-/

namespace GoldTables.Parser

open Relation (ReflTransGen)

variable {grammar : Grammar} {parser next opened : Parser} {messages : List Message}

/-! ## Tokens of a parse -/

/-- What is done with a parser whose input stays open: it takes a step, or the consumer changes its
    flag, the tokens that wait, or what a parsed token on top of the stack carries. -/
inductive Move (grammar : Grammar) (parser : Parser) : Parser → Prop where
  | step {message : Option Message} {next : Parser} (h : Step grammar parser message next) :
    Move grammar parser next
  | setTrim (trim : Bool) : Move grammar parser (parser.setTrim trim)
  | input (input : List Token) : Move grammar parser { parser with input }
  | payload {top : Token} {below : List Token} (hstack : parser.stack = top :: below)
    (hbelow : below ≠ []) (payload : Payload) :
    Move grammar parser { parser with stack := { top with payload } :: below }

theorem Move.opened_eq (h : Move grammar parser next) : next.opened = parser.opened := by
  cases h with
  | step hstep => exact hstep.opened
  | _ => rfl

/-- Since the parser `opened` a token was put on a stack, where it lies over the tokens `below` it;
    it was shifted, or built by a production. -/
inductive Parsed (grammar : Grammar) (opened : Parser) : Parser → List Token → Token → Prop where
  /-- The lookahead was shifted. -/
  | shifted {parser next : Parser} {lookahead : Token}
    (hreached : ReflTransGen (Move grammar) opened parser)
    (hstep : Step grammar parser none next) (hinput : parser.input = lookahead :: next.input)
    (hstack : next.stack = { lookahead with state := next.lrState } :: parser.stack) :
    Parsed grammar opened next parser.stack { lookahead with state := next.lrState }
  /-- A production was applied. -/
  | built {parser next : Parser} {below : List Token} {token : Token}
    (hreached : ReflTransGen (Move grammar) opened parser)
    (hstep : Step grammar parser (some .reduction) next) (hstack : next.stack = token :: below) :
    Parsed grammar opened next below token
  /-- Something was done, and the token stayed where it was. -/
  | stays {parser next : Parser} {above below : List Token} {token : Token}
    (h : Parsed grammar opened parser below token) (hmove : Move grammar parser next)
    (hstack : next.stack = above ++ token :: below) : Parsed grammar opened next below token
  /-- The token was renamed. -/
  | renamed {parser next : Parser} {below : List Token} {token : Token} {symbol : UInt16}
    (h : Parsed grammar opened parser below token) (htop : parser.stack = token :: below)
    (hstep : Step grammar parser none next)
    (hstack : next.stack = { token with symbol, state := next.lrState } :: below) :
    Parsed grammar opened next below { token with symbol, state := next.lrState }
  /-- The consumer changed what the token carries. -/
  | changed {parser : Parser} {below : List Token} {token : Token}
    (h : Parsed grammar opened parser below token) (htop : parser.stack = token :: below)
    (payload : Payload) :
    Parsed grammar opened { parser with stack := { token with payload } :: below } below
      { token with payload }

/-! ## Stacks of tokens of a parse -/

/-- A parser that was reached from `opened`, with tokens of this parse on its stack over the one at
    the bottom. -/
structure Growing (grammar : Grammar) (opened parser : Parser) : Prop where
  reached : ReflTransGen (Move grammar) opened parser
  bottom : parser.stack.getLast? = some (bottom grammar)
  parsed : ∀ above token below, parser.stack = above ++ token :: below → below ≠ [] →
    Parsed grammar opened parser below token

section

variable {front under : List Token} {top : Token}

/-- Nothing was parsed yet. -/
theorem growing_refl (h : opened.stack = [Parser.bottom grammar]) :
    Growing grammar opened opened where
  reached := .refl
  bottom := by rw [h]; rfl
  parsed above token below hstack hbelow := by
    rw [h] at hstack
    obtain ⟨-, hnil⟩ | ⟨-, hnil⟩ := List.append_eq_singleton_iff.1 hstack.symm
    · exact absurd (List.cons.inj hnil).2 hbelow
    · cases hnil

theorem Growing.stack_ne (h : Growing grammar opened parser) : parser.stack ≠ [] := by
  intro hnil
  have hbottom := h.bottom
  rw [hnil] at hbottom
  cases hbottom

/-- Tokens are taken from the stack, or none. -/
theorem Growing.pop (h : Growing grammar opened parser) (hmove : Move grammar parser next)
    (hstack : parser.stack = front ++ next.stack) (hne : next.stack ≠ []) :
    Growing grammar opened next where
  reached := h.reached.tail hmove
  bottom := by
    have hbottom := h.bottom
    rwa [hstack, List.getLast?_append_of_ne_nil _ hne] at hbottom
  parsed above token below hsplit hbelow := by
    have hbefore : parser.stack = (front ++ above) ++ token :: below := by
      rw [hstack, hsplit, List.append_assoc]
    exact (h.parsed _ token below hbefore hbelow).stays hmove hsplit

/-- Tokens are taken from the stack, or none, and a token is put there. -/
theorem Growing.push (h : Growing grammar opened parser) (hmove : Move grammar parser next)
    (hstack : parser.stack = front ++ under) (hne : under ≠ []) (hnext : next.stack = top :: under)
    (htop : Parsed grammar opened next under top) : Growing grammar opened next where
  reached := h.reached.tail hmove
  bottom := by
    have hbottom := h.bottom
    rw [hstack, List.getLast?_append_of_ne_nil _ hne] at hbottom
    rw [hnext, List.getLast?_cons, hbottom]
    rfl
  parsed above token below hsplit hbelow := by
    rw [hnext] at hsplit
    cases above with
    | nil =>
      obtain ⟨rfl, rfl⟩ := List.cons.inj hsplit
      exact htop
    | cons first above =>
      obtain ⟨rfl, hunder⟩ := List.cons.inj hsplit
      have hbefore : parser.stack = (front ++ above) ++ token :: below := by
        rw [hstack, hunder, List.append_assoc]
        rfl
      have hafter : next.stack = (top :: above) ++ token :: below := by
        rw [hnext, hsplit]
      exact (h.parsed _ token below hbefore hbelow).stays hmove hafter

/-- A step takes tokens of this parse from the stack, shifts or builds one, or renames the one on
    top. -/
theorem Growing.step {message : Option Message} (h : Growing grammar opened parser)
    (hstep : Step grammar parser message next) : Growing grammar opened next := by
  have hmove : Move grammar parser next := .step hstep
  cases hstep with
  | shift hhandles haction =>
    have htop := Parsed.shifted h.reached (.shift hhandles haction) hhandles.input rfl
    exact h.push hmove (List.nil_append _).symm h.stack_ne rfl htop
  | @rename lookahead top exposed rest below index target production hreduces htrim hstack hgoto =>
    have hne : exposed :: below ≠ [] := List.cons_ne_nil _ _
    have htop := (h.parsed [] top _ hstack hne).renamed hstack
      (.rename hreduces htrim hstack hgoto) rfl
    have hbefore : parser.stack = [top] ++ exposed :: below := hstack
    exact h.push hmove hbefore hne rfl htop
  | @renameLost lookahead top exposed rest below index production hreduces htrim hstack hgoto =>
    have hbefore : parser.stack = [top] ++ exposed :: below := hstack
    exact h.pop hmove hbefore (List.cons_ne_nil _ _)
  | reduction hreduces htrim hstack hlength hgoto =>
    have htop := Parsed.built h.reached (.reduction hreduces htrim hstack hlength hgoto) rfl
    exact h.push hmove hstack (List.cons_ne_nil _ _) rfl htop
  | reductionLost hreduces htrim hstack hlength hgoto =>
    exact h.pop hmove hstack (List.cons_ne_nil _ _)
  | _ => exact h.pop hmove (List.nil_append _).symm h.stack_ne

theorem Growing.move (h : Growing grammar opened parser) (hmove : Move grammar parser next) :
    Growing grammar opened next := by
  cases hmove with
  | step hstep => exact h.step hstep
  | setTrim trim => exact h.pop (.setTrim trim) (List.nil_append _).symm h.stack_ne
  | input input => exact h.pop (.input input) (List.nil_append _).symm h.stack_ne
  | @payload top below hstack hbelow payload =>
    have htop := (h.parsed [] top below hstack hbelow).changed hstack payload
    have hbefore : parser.stack = [top] ++ below := hstack
    exact h.push (.payload hstack hbelow payload) hbefore hbelow rfl htop

/-- The tokens on the stack were shifted or built in this parse, up to the bottom. -/
theorem growing_of_reached (hopened : opened.stack = [Parser.bottom grammar])
    (h : ReflTransGen (Move grammar) opened parser) : Growing grammar opened parser := by
  induction h with
  | refl => exact growing_refl hopened
  | tail _ hmove ih => exact ih.move hmove

/-- The token on top is the one at the bottom if nothing else is left, and one of this parse if
    not. -/
theorem Growing.root (h : Growing grammar opened parser) {below : List Token}
    (hstack : parser.stack = top :: below) :
    (parser.stackDepth = 0 → top = Parser.bottom grammar) ∧
      (parser.stackDepth ≠ 0 → Parsed grammar opened parser below top) := by
  have hlength : parser.stackDepth = below.length := by
    rw [stackDepth, hstack]
    rfl
  rw [hlength, ne_eq, List.length_eq_zero_iff]
  refine ⟨?_, h.parsed [] top below hstack⟩
  rintro rfl
  have hbottom := h.bottom
  rw [hstack] at hbottom
  exact Option.some.inj hbottom

/-- A token that was parsed lies on the stack, and not at the bottom. -/
theorem Parsed.lies {below : List Token} {token : Token}
    (hopened : opened.stack = [Parser.bottom grammar])
    (h : Parsed grammar opened parser below token) :
    below ≠ [] ∧ ∃ above, parser.stack = above ++ token :: below := by
  induction h with
  | shifted hreached _ _ hstack =>
    exact ⟨(growing_of_reached hopened hreached).stack_ne, [], hstack⟩
  | built _ hstep hstack =>
    refine ⟨?_, [], hstack⟩
    cases hstep with
    | reduction =>
      obtain ⟨-, rfl⟩ := List.cons.inj hstack
      exact List.cons_ne_nil _ _
  | stays _ _ hstack ih => exact ⟨ih.1, _, hstack⟩
  | renamed _ _ _ hstack ih => exact ⟨ih.1, [], hstack⟩
  | changed _ _ _ ih => exact ⟨ih.1, [], rfl⟩

/-- Where only the one at the bottom is left, no token was parsed. -/
theorem not_parsed_of_stackDepth {below : List Token} {token : Token}
    (hopened : opened.stack = [Parser.bottom grammar]) (hdepth : parser.stackDepth = 0) :
    ¬Parsed grammar opened parser below token := by
  intro h
  obtain ⟨hne, above, hstack⟩ := h.lies hopened
  have hpositive := List.length_pos_iff.2 hne
  rw [stackDepth, hstack, List.length_append, List.length_cons] at hdepth
  omega

end

/-! ## Sessions -/

/-- The parser was reached from one with an empty stack, by what does not open or drop an input;
    and that one was opened on a text if the parser is open. -/
def InParse (grammar : Grammar) (parser : Parser) : Prop :=
  ∃ opened : Parser, opened.stack = [bottom grammar] ∧ ReflTransGen (Move grammar) opened parser ∧
    (parser.opened = true → ∃ first text, opened = openText first grammar text)

theorem InParse.move (h : InParse grammar parser) (hmove : Move grammar parser next) :
    InParse grammar next := by
  obtain ⟨opened, hstack, hreached, htext⟩ := h
  refine ⟨opened, hstack, hreached.tail hmove, ?_⟩
  rw [hmove.opened_eq]
  exact htext

/-- Only a token that was parsed carries a reduction. -/
theorem InParse.below_ne {top : Token} {below : List Token} (h : InParse grammar parser)
    (hstack : parser.stack = top :: below)
    (htop : below ≠ [] ∨ top.payload.reduction?.isSome = true) : below ≠ [] := by
  obtain ⟨opened, hopened, hreached, -⟩ := h
  rintro rfl
  obtain hne | hreduction := htop
  · exact hne rfl
  · have hbottom := (growing_of_reached hopened hreached).bottom
    rw [hstack] at hbottom
    cases hbottom
    cases hreduction

theorem InParse.kept : Kept grammar (fun _ => True) (InParse grammar) where
  restart parser := ⟨parser.restart grammar, rfl, .refl, nofun⟩
  openText parser text := ⟨parser.openText grammar text, rfl, .refl, fun _ => ⟨parser, text, rfl⟩⟩
  setTrim _ trim h := h.move (.setTrim trim)
  step _ _ _ h hstep _ := h.move (.step hstep)
  input _ input h := h.move (.input input)
  payload _ _ _ payload h hstack htop := h.move (.payload hstack (h.below_ne hstack htop) payload)

/-- An input is accepted only if one is open. -/
theorem Calls.opened_of_accept (h : Calls grammar parser messages next)
    (haccept : messages.getLast? = some .accept) : next.opened = true := by
  cases h with
  | nil => cases haccept
  | call _ hparse =>
    rw [List.getLast?_concat, Option.some.injEq] at haccept
    subst haccept
    obtain ⟨last, -, hlast⟩ := parse_eq_some_iff.1 hparse
    cases step_eq_iff.1 hlast with
    | accept hhandles _ => exact hhandles.opened

/-- The answer to an input that is not accepted is an error. -/
theorem exists_error_of_answer {message : Message} {reply : Except ParseError Token}
    (h : parser.answer grammar message = (reply, next)) (hne : message ≠ .accept) :
    ∃ fault, reply = .error fault := by
  rw [answer, if_neg hne] at h
  cases h
  exact ⟨_, rfl⟩

/-- The answer to an accepted input is the token on top of the stack. -/
theorem answer_accept {root : Token} {below : List Token} (hstack : parser.stack = root :: below) :
    parser.answer grammar .accept = (.ok root, parser.restart grammar) := by
  rw [answer, if_pos rfl, hstack]

/-- In every session, `parseTree` answers with an error if the input is not accepted. If it is, the
    answer is the token on top of the stack; when a token lies there over the one at the bottom it
    was shifted or built since the input was opened. But when the tables accept the input before
    anything was parsed the answer is the token at the bottom, and not an internal error. -/
theorem root_of_parseTree {reported : List Message} {limit : Nat} {last : Parser}
    {answer : Except ParseError Token} (hsession : Session grammar messages parser)
    (hdrive : drive grammar limit [] parser = some (reported, last))
    (hanswer : parseTree grammar limit parser = some (answer, next)) :
    (reported.getLast? ≠ some .accept → ∃ fault, answer = .error fault) ∧
      (reported.getLast? = some .accept → ∃ first text,
        ReflTransGen (Move grammar) (openText first grammar text) last ∧
          (last.stackDepth = 0 → answer = .ok (bottom grammar) ∧
            ∀ below token, ¬Parsed grammar (openText first grammar text) last below token) ∧
          (last.stackDepth ≠ 0 → ∃ root below, last.stack = root :: below ∧ answer = .ok root ∧
            Parsed grammar (openText first grammar text) last below root)) := by
  obtain ⟨before, final, _, hdriven, -, hfinal⟩ := exists_drive_of_parseTree [] hanswer
  rw [hdrive] at hdriven
  cases hdriven
  obtain ⟨calls, _, hcalled, hcalls, -⟩ := exists_calls_of_parseTree hdrive hanswer
  have hlast : ([].reverse ++ before ++ [final]).getLast? = some final := List.getLast?_concat
  rw [hlast, ne_eq, Option.some.injEq]
  refine ⟨exists_error_of_answer hfinal, ?_⟩
  rintro rfl
  rw [hcalled] at hlast
  obtain ⟨opened, hstack, hreached, htext⟩ :=
    (hsession.calls hcalls).invariant InParse.kept fun _ _ => trivial
  -- an input is accepted only by a parser that is open, and this one was opened on a text
  obtain ⟨first, text, rfl⟩ := htext (hcalls.opened_of_accept hlast)
  have hgrowing := growing_of_reached hstack hreached
  obtain ⟨root, below, hcons⟩ := List.exists_cons_of_ne_nil hgrowing.stack_ne
  rw [answer_accept hcons] at hfinal
  cases hfinal
  refine ⟨first, text, hreached, fun hdepth => ?_, fun hdepth => ?_⟩
  · rw [(hgrowing.root hcons).1 hdepth]
    exact ⟨rfl, fun _ _ => not_parsed_of_stackDepth hstack hdepth⟩
  · exact ⟨root, below, hcons, rfl, (hgrowing.root hcons).2 hdepth⟩

/-- Tables that accept the end of the input in front of the letter `a` and behind it. -/
def eagerFile : List UInt8 :=
  textBytes "Any header" ++ [
    kindRecord .tableCounts [.uint16 3, .uint16 1, .uint16 0, .uint16 2, .uint16 2, .uint16 0],
    kindRecord .symbol [.uint16 0, .string "EOF", .uint16 3],
    kindRecord .symbol [.uint16 1, .string "Error", .uint16 7],
    kindRecord .symbol [.uint16 2, .string "a", .uint16 1],
    kindRecord .lrState [.uint16 0, .empty, .uint16 0, .uint16 4, .uint16 0, .empty,
      .uint16 2, .uint16 1, .uint16 1, .empty],
    kindRecord .lrState [.uint16 1, .empty, .uint16 0, .uint16 4, .uint16 0, .empty],
    kindRecord .characterSet [.uint16 0, .uint16 0, .uint16 1, .empty, .uint16 97, .uint16 97],
    kindRecord .dfaState [.uint16 0, .boolean false, .uint16 0, .empty,
      .uint16 0, .uint16 1, .empty],
    kindRecord .dfaState [.uint16 1, .boolean true, .uint16 2, .empty]].flatMap recordBytes

/-- The empty text has the token at the bottom as its tree. -/
theorem root_of_parseTree_eagerFile :
    ∃ grammar, Grammar.ofBytes eagerFile = .ok grammar ∧
      (∃ last next, last.stackDepth = 0 ∧
        drive grammar 2 [] ((start grammar).openText grammar "") =
          some ([.tokenRead, .accept], last) ∧
        parseTree grammar 2 ((start grammar).openText grammar "") =
          some (.ok (bottom grammar), next)) ∧
      ∃ last next root below first text, last.stackDepth ≠ 0 ∧
        drive grammar 3 [] ((start grammar).openText grammar "a") =
          some ([.tokenRead, .tokenRead, .accept], last) ∧
        parseTree grammar 3 ((start grammar).openText grammar "a") = some (.ok root, next) ∧
        Parsed grammar (openText first grammar text) last below root := by
  have hpasses : Grammar.passes eagerFile (fun grammar =>
      let empty := (start grammar).openText grammar ""
      let letter := (start grammar).openText grammar "a"
      (parseTree grammar 2 empty).isSome && (parseTree grammar 3 letter).isSome &&
        ((drive grammar 2 [] empty).any fun driven =>
          driven.1 = [.tokenRead, .accept] && driven.2.stackDepth = 0) &&
        (drive grammar 3 [] letter).any fun driven =>
          driven.1 = [.tokenRead, .tokenRead, .accept] && driven.2.stackDepth ≠ 0) = true := by
    decide +kernel
  obtain ⟨grammar, hgrammar, htest⟩ := Grammar.exists_of_passes hpasses
  simp only [Bool.and_eq_true, Option.any_eq_true, Option.isSome_iff_exists, decide_eq_true_eq]
    at htest
  obtain ⟨⟨⟨⟨⟨answer, next⟩, hanswer⟩, ⟨reply, behind⟩, hreply⟩, ⟨_, last⟩, hdrive, rfl, hdepth⟩,
    ⟨_, final⟩, hdriven, rfl, hparsed⟩ := htest
  obtain ⟨_, _, -, hempty, -⟩ :=
    (root_of_parseTree (Session.start.openText "") hdrive hanswer).2 rfl
  obtain ⟨first, text, -, -, hletter⟩ :=
    (root_of_parseTree (Session.start.openText "a") hdriven hreply).2 rfl
  obtain ⟨rfl, -⟩ := hempty hdepth
  obtain ⟨root, below, -, rfl, hroot⟩ := hletter hparsed
  exact ⟨grammar, hgrammar, ⟨last, next, hdepth, hdrive, hanswer⟩,
    ⟨final, behind, root, below, first, text, hparsed, hdriven, hreply, hroot⟩⟩

end GoldTables.Parser

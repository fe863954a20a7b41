import GoldTables.Proofs.ParsedTokens

/-!
# Sessions

A session is whatever a consumer may do with a parser: open inputs, call
`parse` and `parseTree`, and in between change the lookahead, the queue behind
it, and what the token on top of the stack carries. What holds in every session
is proved for each of these operations once.

Results:
* `setChild_eq`: to replace a child is to change the current reduction.
* `Session.invariant`: what the operations and the steps keep holds in every session.
-/

namespace GoldTables.Parser

variable {grammar : Grammar} {parser next : Parser} {messages : List Message}

/-! ## Operations -/

/-- Changes the production and the children of the token on top of the stack, if it has any. -/
def modifyCurrentReduction (parser : Parser)
    (change : UInt16 × List Token → UInt16 × List Token) : Parser :=
  match parser.stack with
  | ⟨symbol, .reduction production children, position, state⟩ :: below =>
    let (production, children) := change (production, children)
    { parser with stack := ⟨symbol, .reduction production children, position, state⟩ :: below }
  | _ => parser

/-- To replace a child is to change the current reduction. -/
theorem setChild_eq (parser : Parser) (index : Nat) (payload : Payload) :
    (parser.setChild index payload).2 = parser.modifyCurrentReduction fun reduction =>
      (reduction.1, reduction.2.modify index fun child => { child with payload }) := by
  obtain ⟨lexer, opened, lrState, stack, input, expected, position, trim⟩ := parser
  cases stack with
  | nil => rfl
  | cons top below =>
    obtain ⟨symbol, current, position, state⟩ := top
    cases current with
    | text => rfl
    | value => rfl
    | reduction production children =>
      unfold setChild modifyCurrentReduction
      by_cases hindex : index < children.length
      · simp only [hindex, if_true]
      · have hsame : (children.modify index fun child => { child with payload }) = children :=
          List.modify_eq_self (Nat.le_of_not_lt hindex)
        simp only [hindex, if_false, hsame]

/-- A consumer has done anything with a parser; the messages are those that were reported since
    an input was opened or dropped. -/
inductive Session (grammar : Grammar) : List Message → Parser → Prop where
  | start : Session grammar [] (start grammar)
  | openText {messages : List Message} {parser : Parser} (h : Session grammar messages parser)
    (text : String) : Session grammar [] (parser.openText grammar text)
  | restart {messages : List Message} {parser : Parser} (h : Session grammar messages parser) :
    Session grammar [] (parser.restart grammar)
  | setTrim {messages : List Message} {parser : Parser} (h : Session grammar messages parser)
    (trim : Bool) : Session grammar messages (parser.setTrim trim)
  | parse {messages : List Message} {parser next : Parser} {message : Message}
    (h : Session grammar messages parser) (hparse : parser.parse grammar = some (message, next)) :
    Session grammar (messages ++ [message]) next
  | parseTree {messages reported : List Message} {parser last next : Parser} {limit : Nat}
    {answer : Except ParseError Token} (h : Session grammar messages parser)
    (hdrive : drive grammar limit [] parser = some (reported, last))
    (hanswer : parseTree grammar limit parser = some (answer, next)) :
    Session grammar (messages ++ reported) next
  | enqueue {messages : List Message} {parser : Parser} (h : Session grammar messages parser)
    (token : Token) : Session grammar messages (parser.enqueue token)
  | push {messages : List Message} {parser : Parser} (h : Session grammar messages parser)
    (token : Token) : Session grammar messages (parser.push token)
  | discard {messages : List Message} {parser : Parser} (h : Session grammar messages parser) :
    Session grammar messages parser.discardCurrentToken.2
  | modifyToken {messages : List Message} {parser : Parser} (h : Session grammar messages parser)
    (change : Token → Token) : Session grammar messages (parser.modifyCurrentToken change)
  | setValue {messages : List Message} {parser : Parser} (h : Session grammar messages parser)
    (value : Json) : Session grammar messages (parser.setCurrentValue value).2
  | modifyReduction {messages : List Message} {parser : Parser}
    (h : Session grammar messages parser)
    (change : UInt16 × List Token → UInt16 × List Token) :
    Session grammar messages (parser.modifyCurrentReduction change)

theorem Session.calls {reported : List Message} (h : Session grammar messages parser)
    (hcalls : Calls grammar parser reported next) :
    Session grammar (messages ++ reported) next := by
  induction hcalls with
  | nil =>
    rw [List.append_nil]
    exact h
  | call _ hparse ih =>
    rw [← List.append_assoc]
    exact ih.parse hparse

/-! ## Invariants -/

theorem Calls.of_parse {message : Message} {last : Parser}
    (hparse : parser.parse grammar = some (message, next))
    (h : Calls grammar next messages last) : Calls grammar parser (message :: messages) last := by
  induction h with
  | nil => exact Calls.nil.call hparse
  | call _ hlast ih => exact ih.call hlast

/-- `parseTree` calls `parse` up to the first final message, and answers to it. -/
theorem exists_calls_of_parseTree {limit : Nat} {done reported : List Message} {last : Parser}
    {answer : Except ParseError Token}
    (hdrive : drive grammar limit done parser = some (reported, last))
    (hanswer : parseTree grammar limit parser = some (answer, next)) :
    ∃ messages message, reported = done.reverse ++ messages ∧
      Calls grammar parser messages last ∧ last.answer grammar message = (answer, next) := by
  induction limit generalizing done parser with
  | zero => cases hanswer
  | succ limit ih =>
    obtain ⟨⟨message, behind⟩, hparse, hanswer⟩ := Option.bind_eq_some_iff.1 hanswer
    rw [drive, hparse, Option.bind_eq_bind, Option.bind_some] at hdrive
    cases hfinal : message.isFinal with
    | true =>
      simp only [hfinal, if_true] at hdrive hanswer
      cases hdrive
      exact ⟨[message], message, by simp, Calls.nil.call hparse, Option.some.inj hanswer⟩
    | false =>
      simp only [hfinal, Bool.false_eq_true, if_false] at hdrive hanswer
      obtain ⟨messages, final, rfl, hcalls, hlast⟩ := ih hdrive hanswer
      exact ⟨message :: messages, final, by simp, hcalls.of_parse hparse, hlast⟩

/-- What the operations keep, and the steps that report messages that are allowed. -/
structure Kept (grammar : Grammar) (allowed : Message → Prop) (inv : Parser → Prop) : Prop where
  restart : ∀ parser : Parser, inv (parser.restart grammar)
  openText : ∀ (parser : Parser) text, inv (parser.openText grammar text)
  setTrim : ∀ (parser : Parser) trim, inv parser → inv (parser.setTrim trim)
  step : Keeps grammar allowed inv
  /-- Other tokens wait. -/
  input : ∀ (parser : Parser) input, inv parser → inv { parser with input }
  /-- The token on top of the stack carries something else; it was parsed, or is a reduction. -/
  payload : ∀ (parser : Parser) top below payload, inv parser → parser.stack = top :: below →
    (below ≠ [] ∨ top.payload.reduction?.isSome = true) →
    inv { parser with stack := { top with payload } :: below }

/-- What the operations and the steps keep holds in every session. -/
theorem Session.invariant {allowed : Message → Prop} {inv : Parser → Prop}
    (hkept : Kept grammar allowed inv) (h : Session grammar messages parser)
    (hallowed : ∀ message ∈ messages, allowed message) : inv parser := by
  induction h with
  | start => exact hkept.restart (Parser.start grammar)
  | openText _ text => exact hkept.openText _ text
  | restart => exact hkept.restart _
  | setTrim _ trim ih => exact hkept.setTrim _ trim (ih hallowed)
  | parse _ hparse ih =>
    rw [List.forall_mem_append, List.forall_mem_singleton] at hallowed
    exact kept_of_parse hkept.step hparse hallowed.2 (ih hallowed.1)
  | parseTree _ hdrive hanswer ih =>
    rw [List.forall_mem_append] at hallowed
    obtain ⟨messages, message, rfl, hcalls, hlast⟩ := exists_calls_of_parseTree hdrive hanswer
    have hinv := hcalls.kept hkept.step hallowed.2 (ih hallowed.1)
    unfold answer at hlast
    split at hlast
    · -- an accepted input is dropped
      split at hlast
      · cases hlast
        exact hkept.restart _
      · cases hlast
        exact hkept.restart _
    · cases hlast
      exact hinv
  | enqueue _ token ih => exact hkept.input _ _ (ih hallowed)
  | push _ token ih => exact hkept.input _ _ (ih hallowed)
  | discard _ ih => exact hkept.input _ _ (ih hallowed)
  | modifyToken _ change ih =>
    unfold modifyCurrentToken
    split
    · exact ih hallowed
    · exact hkept.input _ _ (ih hallowed)
  | setValue _ value ih =>
    unfold setCurrentValue
    split
    · next top below rest hstack =>
      exact hkept.payload _ _ _ (.value value) (ih hallowed) hstack (.inl (List.cons_ne_nil _ _))
    · exact ih hallowed
  | modifyReduction _ change ih =>
    unfold modifyCurrentReduction
    split
    · next symbol production children position state below hstack =>
      exact hkept.payload _ _ _ _ (ih hallowed) hstack (.inr rfl)
    · exact ih hallowed

end GoldTables.Parser

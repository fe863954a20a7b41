import GoldTables.Proofs.StackPaths
import GoldTables.Proofs.StreamingEvaluation

/-!
# Reductions are reported in the order of the trees

A consumer that looks at the current reduction behind every message that
reports one sees the productions of the trees on the stack: from left to right,
and each behind those below it. A reduction appends its own production behind
those of the tokens that it takes from the stack, and a token that is renamed
keeps what it carries, so that this holds of the stack behind every step,
whatever the tables say.

Results:
* `Token.perm_applied`: the reductions of a tree in this order are those that a walk visits.
* `Step.applied_eq`: a step adds the reduction that it reports, and no other.
* `seen_in_order`: what the consumer sees is what the trees on the stack were built by.
-/

namespace GoldTables

/-! ## The reductions of a tree -/

mutual

/-- The productions that built a tree with the tokens of their bodies, each behind those below
    it. -/
def Token.applied (token : Token) : List (UInt16 × List Token) :=
  match token with
  | ⟨_, .reduction index children, _, _⟩ => Token.appliedAll children ++ [(index, children)]
  | ⟨_, .text _, _, _⟩ | ⟨_, .value _, _, _⟩ => []

/-- The productions that built trees, from left to right. -/
def Token.appliedAll : List Token → List (UInt16 × List Token)
  | [] => []
  | token :: tokens => token.applied ++ Token.appliedAll tokens

end

namespace Token

mutual

/-- The productions alone are the ones that `reductions` lists. -/
theorem map_fst_applied (token : Token) : token.applied.map Prod.fst = token.reductions := by
  match token with
  | ⟨symbol, .reduction index children, position, state⟩ =>
    rw [applied, reductions, Payload.reductions, List.map_append, map_fst_appliedAll]
    rfl
  | ⟨symbol, .text text, position, state⟩ =>
    rw [applied, reductions, Payload.reductions]
    rfl
  | ⟨symbol, .value value, position, state⟩ =>
    rw [applied, reductions, Payload.reductions]
    rfl

theorem map_fst_appliedAll (tokens : List Token) :
    (appliedAll tokens).map Prod.fst = reductionsAll tokens := by
  match tokens with
  | [] => rw [appliedAll, reductionsAll, List.map_nil]
  | token :: tokens =>
    rw [appliedAll, reductionsAll, List.map_append, map_fst_applied, map_fst_appliedAll]

end

mutual

/-- The reductions of a tree are those of its tokens, each once, in another order. -/
theorem perm_applied (token : Token) :
    token.applied.Perm (token.nodes.filterMap fun node => node.payload.reduction?) := by
  match token with
  | ⟨symbol, .reduction index children, position, state⟩ =>
    rw [applied, nodes, Payload.nodes]
    exact (List.perm_append_singleton _ _).trans ((perm_appliedAll children).cons _)
  | ⟨symbol, .text text, position, state⟩ =>
    rw [applied, nodes, Payload.nodes]
    exact List.Perm.nil
  | ⟨symbol, .value value, position, state⟩ =>
    rw [applied, nodes, Payload.nodes]
    exact List.Perm.nil

theorem perm_appliedAll (tokens : List Token) :
    (appliedAll tokens).Perm ((nodesAll tokens).filterMap fun node => node.payload.reduction?) := by
  match tokens with
  | [] =>
    rw [appliedAll, nodesAll]
    exact List.Perm.nil
  | token :: tokens =>
    rw [appliedAll, nodesAll, List.filterMap_append]
    exact (perm_applied token).append (perm_appliedAll tokens)

end

/-- The walk visits the token in front of its children, which changes the order only. -/
theorem perm_applied_walk (token : Token) :
    token.applied.Perm (token.walk.filterMap fun visited => visited.2.payload.reduction?) := by
  have hnodes := token.perm_applied
  rw [← map_snd_walk, List.filterMap_map] at hnodes
  exact hnodes

section

variable {tokens more : List Token} {token other : Token} {symbol state : UInt16}
  {position : Position}

theorem appliedAll_append :
    appliedAll (tokens ++ more) = appliedAll tokens ++ appliedAll more := by
  induction tokens with
  | nil => rw [appliedAll]; rfl
  | cons token tokens ih => rw [List.cons_append, appliedAll, appliedAll, ih, List.append_assoc]

theorem appliedAll_singleton : appliedAll [token] = token.applied := by
  rw [appliedAll, appliedAll, List.append_nil]

/-- The token on top of a stack is the last one from the left. -/
theorem appliedAll_reverse_cons :
    appliedAll (token :: tokens).reverse = appliedAll tokens.reverse ++ token.applied := by
  rw [List.reverse_cons, appliedAll_append, appliedAll_singleton]

theorem applied_reduction (index : UInt16) (children : List Token) :
    applied ⟨symbol, .reduction index children, position, state⟩ =
      appliedAll children ++ [(index, children)] := by
  rw [applied]

/-- Only what a token carries matters. -/
theorem applied_eq_of_payload (h : token.payload = other.payload) :
    token.applied = other.applied := by
  obtain ⟨symbol, payload, position, state⟩ := token
  obtain ⟨symbol', payload', position', state'⟩ := other
  cases h
  cases payload <;> rw [applied, applied]

theorem applied_of_text {text : String} (h : token.payload = .text text) : token.applied = [] := by
  obtain ⟨symbol, payload, position, state⟩ := token
  cases h
  rw [applied]

end

end Token

namespace Parser

variable {grammar : Grammar} {parser next first current : Parser} {message : Option Message}
  {messages : List Message} {seen : List (Option (UInt16 × List Token))}

/-! ## Consumers that look at reductions -/

/-- What the consumer sees behind a message: the current reduction, if one was reported. -/
def seenBehind (message : Message) (parser : Parser) : List (Option (UInt16 × List Token)) :=
  if message = .reduction then [parser.currentReduction?] else []

/-- Calls of `parse` lead from a parser to another and report messages, and the consumer looks at
    the current reduction behind every message that reports one. -/
inductive Sees (grammar : Grammar) (first : Parser) :
    List Message → List (Option (UInt16 × List Token)) → Parser → Prop where
  | nil : Sees grammar first [] [] first
  | call {messages : List Message} {seen : List (Option (UInt16 × List Token))}
    {message : Message} {current next : Parser} (h : Sees grammar first messages seen current)
    (hparse : current.parse grammar = some (message, next)) :
    Sees grammar first (messages ++ [message]) (seen ++ seenBehind message next) next

theorem Sees.calls (h : Sees grammar first messages seen current) :
    Calls grammar first messages current := by
  induction h with
  | nil => exact .nil
  | call _ hparse ih => exact ih.call hparse

/-- The consumer may look behind any calls. -/
theorem Calls.exists_sees (h : Calls grammar first messages current) :
    ∃ seen, Sees grammar first messages seen current := by
  induction h with
  | nil => exact ⟨[], .nil⟩
  | call _ hparse ih =>
    obtain ⟨seen, hsees⟩ := ih
    exact ⟨_, hsees.call hparse⟩

/-! ## The reductions of a stack -/

/-- The reductions of the trees on the stack, from left to right. -/
def applied (parser : Parser) : List (UInt16 × List Token) := Token.appliedAll parser.stack.reverse

/-- The reductions of a stack with a single token are those of its tree. -/
theorem applied_root {root : Token} (hstack : parser.stack = [root, bottom grammar]) :
    parser.applied = root.applied := by
  have hbottom : (bottom grammar).applied = [] := Token.applied_of_text rfl
  rw [applied, hstack, Token.appliedAll_reverse_cons, List.reverse_singleton,
    Token.appliedAll_singleton, hbottom, List.nil_append]

/-- A step adds the reduction that it reports, and no other. -/
theorem Step.applied_eq (h : Step grammar parser message next) (htexts : ReadsTexts parser)
    (hno : message ≠ some .internalError) :
    next.applied.map some =
      parser.applied.map some ++
        message.toList.flatMap fun reported => seenBehind reported next := by
  cases h with
  | @shift lookahead rest target hhandles haction =>
    obtain ⟨text, htext⟩ := htexts lookahead (by rw [hhandles.input]; exact List.mem_cons_self)
    have hleaf : Token.applied { lookahead with state := target } = [] :=
      Token.applied_of_text htext
    show (Token.appliedAll
      ({ lookahead with state := target } :: parser.stack).reverse).map some = _
    rw [Token.appliedAll_reverse_cons, hleaf, List.append_nil]
    exact (List.append_nil _).symm
  | @rename lookahead top exposed rest below index target production hreduces htrim hstack hgoto =>
    have hsame : Token.applied { top with symbol := production.head, state := target } =
        top.applied := Token.applied_eq_of_payload rfl
    have hbefore : parser.applied = Token.appliedAll (exposed :: below).reverse ++ top.applied := by
      rw [applied, hstack, Token.appliedAll_reverse_cons]
    rw [hbefore, applied, Token.appliedAll_reverse_cons, hsame]
    exact (List.append_nil _).symm
  | @reduction lookahead exposed rest children below index _ _ hreduces htrim hstack hlength hgoto =>
    have hbefore : parser.applied =
        Token.appliedAll (exposed :: below).reverse ++ Token.appliedAll children := by
      rw [applied, hstack, List.reverse_append, List.reverse_reverse, Token.appliedAll_append]
    rw [hbefore, applied, Token.appliedAll_reverse_cons, Token.applied_reduction,
      ← List.append_assoc, List.map_append]
    rfl
  | unknownSymbol => exact absurd rfl hno
  | strayGoto => exact absurd rfl hno
  | unknownProduction => exact absurd rfl hno
  | underflow => exact absurd rfl hno
  | renameLost => exact absurd rfl hno
  | reductionLost => exact absurd rfl hno
  | _ => simp [applied, seenBehind, lookAt]

/-- Silent steps add no reduction. -/
theorem Silent.applied_eq (hsilent : Silent grammar parser next) (htexts : ReadsTexts parser) :
    next.applied = parser.applied := by
  induction hsilent with
  | refl => rfl
  | step hstep _ ih =>
    have hsteps := step_eq_iff.1 hstep
    rw [ih (ReadsTexts.keeps _ _ _ htexts hsteps nofun)]
    have hadds := hsteps.applied_eq htexts nofun
    rw [Option.toList_none, List.flatMap_nil, List.append_nil] at hadds
    exact (List.map_inj_right fun _ _ => Option.some.inj).1 hadds

/-- What the consumer sees are the reductions of the trees on the stack. -/
theorem Sees.eq_applied (h : Sees grammar first messages seen current) (htexts : ReadsTexts first)
    (hfirst : first.applied = []) (hno : .internalError ∉ messages) :
    seen = current.applied.map some := by
  induction h with
  | nil => rw [hfirst]; rfl
  | @call messages seen message current next hsees hparse ih =>
    rw [List.mem_append, List.mem_singleton, not_or] at hno
    have hreads : ReadsTexts current :=
      hsees.calls.kept ReadsTexts.keeps (fun _ _ => trivial) htexts
    obtain ⟨last, hsilent, hlast⟩ := parse_eq_some_iff.1 hparse
    have hadds := (step_eq_iff.1 hlast).applied_eq (hsilent.kept ReadsTexts.keeps hreads)
      (fun h => hno.2 (Option.some.inj h).symm)
    rw [hadds, hsilent.applied_eq hreads, ih hno.1]
    simp

theorem map_fst_some (reductions : List (UInt16 × List Token)) :
    (reductions.map some).map (Option.map Prod.fst) = (reductions.map Prod.fst).map some := by
  simp

/-- Behind any calls of `parse` on a text that report no internal error, the productions that the
    consumer has seen as current reductions, one behind every message that reports a reduction, are
    those of the trees on the stack, from left to right and each behind the ones below it. If the
    input is accepted now with a single token on the stack, these are the productions of its tree,
    and what was seen are the reductions that a walk over the tree visits, each once. -/
theorem seen_in_order (parser : Parser) (trim : Bool) (text : String)
    (hsees : Sees grammar ((parser.setTrim trim).openText grammar text) messages seen current)
    (hno : .internalError ∉ messages) :
    seen.map (Option.map Prod.fst) = (Token.reductionsAll current.stack.reverse).map some ∧
      ∀ last, current.parse grammar = some (.accept, last) → last.stackDepth = 1 →
        ∃ root, last.stack = [root, bottom grammar] ∧
          seen.map (Option.map Prod.fst) = root.reductions.map some ∧
          seen.Perm
            ((root.walk.filterMap fun visited => visited.2.payload.reduction?).map some) := by
  have htexts : ReadsTexts ((parser.setTrim trim).openText grammar text) :=
    fun _ hmem => absurd hmem List.not_mem_nil
  have hfirst : ((parser.setTrim trim).openText grammar text).applied = [] :=
    Token.appliedAll_singleton.trans (Token.applied_of_text rfl)
  constructor
  · rw [hsees.eq_applied htexts hfirst hno, map_fst_some, applied, Token.map_fst_appliedAll]
  · intro last hparse hdepth
    have hcalled : .internalError ∉ messages ++ [Message.accept] := by simpa using hno
    have hlast : seen ++ [] = last.applied.map some :=
      (hsees.call hparse).eq_applied htexts hfirst hcalled
    obtain ⟨symbols, hspells⟩ : OnPath grammar last :=
      (hsees.call hparse).calls.invariant OnPath.step hcalled (onPath_restart (parser.setTrim trim))
    obtain ⟨root, hstack⟩ := hspells.exists_root hdepth
    rw [List.append_nil, applied_root hstack] at hlast
    refine ⟨root, hstack, ?_, ?_⟩
    · rw [hlast, map_fst_some, Token.map_fst_applied]
    · rw [hlast]
      exact root.perm_applied_walk.map some

/-- The letter `b` with blanks around it, between two bodies that are empty. -/
def emptyBodiesFile : List UInt8 :=
  textBytes "Any header" ++ [
    kindRecord .tableCounts [.uint16 6, .uint16 2, .uint16 2, .uint16 3, .uint16 5, .uint16 0],
    kindRecord .symbol [.uint16 0, .string "EOF", .uint16 3],
    kindRecord .symbol [.uint16 1, .string "Error", .uint16 7],
    kindRecord .symbol [.uint16 2, .string "Blank", .uint16 2],
    kindRecord .symbol [.uint16 3, .string "b", .uint16 1],
    kindRecord .symbol [.uint16 4, .string "S", .uint16 0],
    kindRecord .symbol [.uint16 5, .string "A", .uint16 0],
    kindRecord .production [.uint16 0, .uint16 4, .empty, .uint16 5, .uint16 3, .uint16 5],
    kindRecord .production [.uint16 1, .uint16 5, .empty],
    kindRecord .lrState [.uint16 0, .empty, .uint16 3, .uint16 2, .uint16 1, .empty,
      .uint16 5, .uint16 3, .uint16 1, .empty, .uint16 4, .uint16 3, .uint16 4, .empty],
    kindRecord .lrState [.uint16 1, .empty, .uint16 3, .uint16 1, .uint16 2, .empty],
    kindRecord .lrState [.uint16 2, .empty, .uint16 0, .uint16 2, .uint16 1, .empty,
      .uint16 5, .uint16 3, .uint16 3, .empty],
    kindRecord .lrState [.uint16 3, .empty, .uint16 0, .uint16 2, .uint16 0, .empty],
    kindRecord .lrState [.uint16 4, .empty, .uint16 0, .uint16 4, .uint16 0, .empty],
    kindRecord .characterSet [.uint16 0, .uint16 0, .uint16 1, .empty, .uint16 98, .uint16 98],
    kindRecord .characterSet [.uint16 1, .uint16 0, .uint16 1, .empty, .uint16 32, .uint16 32],
    kindRecord .dfaState [.uint16 0, .boolean false, .uint16 0, .empty,
      .uint16 0, .uint16 1, .empty, .uint16 1, .uint16 2, .empty],
    kindRecord .dfaState [.uint16 1, .boolean true, .uint16 3, .empty],
    kindRecord .dfaState [.uint16 2, .boolean true, .uint16 2, .empty]].flatMap recordBytes

/-- The two empty bodies are seen before the body that they are part of. -/
theorem seen_in_order_emptyBodiesFile :
    ∃ grammar messages seen current last root, Grammar.ofBytes emptyBodiesFile = .ok grammar ∧
      Sees grammar (((start grammar).setTrim false).openText grammar " b ") messages seen current ∧
      .internalError ∉ messages ∧ current.parse grammar = some (.accept, last) ∧
      last.stackDepth = 1 ∧ last.stack = [root, bottom grammar] ∧
      seen.map (Option.map Prod.fst) = [some 1, some 1, some 0] ∧
      seen.Perm ((root.walk.filterMap fun visited => visited.2.payload.reduction?).map some) := by
  have hpasses : Grammar.passes emptyBodiesFile (fun grammar =>
      (calls grammar 7 (((start grammar).setTrim false).openText grammar " b ")).any fun run =>
        !run.1.contains .internalError &&
          (run.2.parse grammar).any fun found =>
            found.1 = .accept && found.2.stackDepth = 1 &&
              found.2.stack.head?.any fun root => root.reductions = [1, 1, 0]) = true := by
    decide +kernel
  obtain ⟨grammar, hgrammar, htest⟩ := Grammar.exists_of_passes hpasses
  simp only [Bool.and_eq_true, Bool.not_eq_true', Option.any_eq_true, decide_eq_true_eq] at htest
  obtain ⟨⟨messages, current⟩, hrun, hmessages, ⟨message, last⟩, hparse, ⟨rfl, hdepth⟩, top, htop,
    hreductions⟩ := htest
  have hno : .internalError ∉ messages := by simpa using hmessages
  obtain ⟨seen, hsees⟩ := (calls_iff.2 ⟨7, hrun⟩).exists_sees
  obtain ⟨root, hstack, hseen, hperm⟩ :=
    (seen_in_order (start grammar) false " b " hsees hno).2 last hparse hdepth
  rw [hstack] at htop
  rw [← Option.some.inj htop] at hreductions
  rw [hreductions] at hseen
  exact ⟨grammar, messages, seen, current, last, root, hgrammar, hsees, hno, hparse, hdepth, hstack,
    hseen, hperm⟩

end Parser

end GoldTables

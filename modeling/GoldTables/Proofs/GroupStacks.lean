import GoldTables.Proofs.NestedGroups
import GoldTables.Proofs.TextConservation
import Mathlib.Data.List.Chain

/-!
# The stack of open groups

A lexer knows of an open group what was gathered so far, but not the token that
opened it, nor which token it has returned last. To say what these have to do
with the stack, a session carries them along: `openersBehind` keeps the opening
tokens up to date from one step to the next, also in the middle of a call.

On every stack a group lies on one that lists it, and its text begins with that
of its opening token: groups are taken from the stack when they are closed, and
the text of one that lies below only grows. A call leaves the groups that are
open behind it only with a token that is the end of the input.

Results:
* `Session.nextToken`, `Session.tokenize`: what the calls that read tokens do is part of sessions.
* `Stacked.again`, `Stacked.token`: every step keeps what holds of the stack.
* `session_nests`: what holds of the stack in every session.
-/

namespace GoldTables.Lexer

open Grammar.Loaded (GroupsExist)

variable {grammar : Grammar} {lexer next : Lexer} {openers : List Token}

/-! ## Sessions -/

/-- The tokens that opened the groups of the lexer `next` behind a step, the innermost first, given
    those of the lexer in front of it. If a group more is open, the token that the step has read
    opened it; the tokens of groups that are no longer open are dropped. -/
def openersBehind (grammar : Grammar) (lexer next : Lexer) (openers : List Token) : List Token :=
  if lexer.depth < next.depth then (lexer.nextRaw grammar).1 :: openers
  else openers.drop (lexer.depth - next.depth)

/-- Where a consumer is with a lexer. -/
inductive Stage where
  /-- Between two calls; the last call of `nextToken`, if there was any, has returned a token. -/
  | between (last : Option Token)
  /-- In the middle of a call of `nextToken`, between two steps through the groups. -/
  | inside

/-- A consumer has done anything with a lexer; the tokens are those that opened its groups. A call
    that reads a token begins, takes its steps, and returns. -/
inductive Session (grammar : Grammar) : List Token → Stage → Lexer → Prop where
  | empty : Session grammar [] (.between none) .empty
  | openText {openers : List Token} {last : Option Token} {lexer : Lexer}
    (h : Session grammar openers (.between last) lexer) (text : String) :
    Session grammar [] (.between last) (.openText text)
  | reset {openers : List Token} {last : Option Token} {lexer : Lexer}
    (h : Session grammar openers (.between last) lexer) :
    Session grammar [] (.between last) lexer.reset
  | nextRaw {openers : List Token} {last : Option Token} {lexer : Lexer}
    (h : Session grammar openers (.between last) lexer) :
    Session grammar openers (.between last) (lexer.nextRaw grammar).2
  | consume {openers : List Token} {last : Option Token} {lexer : Lexer}
    (h : Session grammar openers (.between last) lexer) (n : Nat) :
    Session grammar openers (.between last) (lexer.consume n)
  | call {openers : List Token} {last : Option Token} {lexer : Lexer}
    (h : Session grammar openers (.between last) lexer) : Session grammar openers .inside lexer
  | again {openers : List Token} {lexer next : Lexer} (h : Session grammar openers .inside lexer)
    (hstep : lexer.groupStep grammar = .again next) :
    Session grammar (openersBehind grammar lexer next openers) .inside next
  | token {openers : List Token} {lexer next : Lexer} {token : Token}
    (h : Session grammar openers .inside lexer)
    (hstep : lexer.groupStep grammar = .token token next) :
    Session grammar (openersBehind grammar lexer next openers) (.between (some token)) next

/-- The steps of a call lead to the token that it returns. -/
theorem Session.returns {n : Nat} {token : Token} (h : Session grammar openers .inside lexer)
    (hrun : stepsWithin grammar n lexer = .token token next) :
    ∃ behind, Session grammar behind (.between (some token)) next := by
  induction n generalizing lexer openers with
  | zero => cases hrun
  | succ n ih =>
    cases hstep : lexer.groupStep grammar with
    | token first last =>
      rw [stepsWithin_token hstep] at hrun
      cases hrun
      exact ⟨_, h.token hstep⟩
    | again last =>
      rw [stepsWithin_again hstep] at hrun
      exact ih (h.again hstep) hrun

/-- To read a token is part of a session. -/
theorem Session.nextToken {last : Option Token} {token : Token}
    (h : Session grammar openers (.between last) lexer)
    (htoken : lexer.nextToken? grammar = some (token, next)) :
    ∃ behind, Session grammar behind (.between (some token)) next :=
  h.call.returns (nextTokenWithin_eq_some_iff.1 htoken)

/-- To read all tokens is part of a session, and the last of them is returned last. -/
theorem Session.tokenize {last : Option Token} {tokens : List Token}
    (h : Session grammar openers (.between last) lexer)
    (htokens : lexer.tokenize grammar = some (tokens, next)) :
    ∃ behind, Session grammar behind (.between tokens.getLast?) next := by
  rw [Lexer.tokenize] at htokens
  generalize lexer.work + 2 = n at htokens
  generalize [] = done at htokens
  induction n generalizing lexer openers last done with
  | zero => cases htokens
  | succ n ih =>
    obtain ⟨⟨token, read⟩, htoken, htokens⟩ := Option.bind_eq_some_iff.1 htokens
    obtain ⟨behind, hbehind⟩ := h.nextToken htoken
    simp only at htokens
    split at htokens
    · cases htokens
      rw [List.reverse_cons, List.getLast?_concat]
      exact ⟨behind, hbehind⟩
    · exact ih hbehind _ htokens

/-! ## Stacks -/

/-- A token opened a group: it is a mark that opens it, and the text of the group begins with that
    of the token. -/
structure OpenedBy (grammar : Grammar) (opened : OpenGroup) (opener : Token) : Prop where
  started : grammar.started? opener.symbol = some opened.group
  ne_nil : opener.chars ≠ []
  begins : opener.chars <+: opened.text.toList

/-- The text of a group grows at its end. -/
theorem OpenedBy.grow {opened : OpenGroup} {opener : Token} (h : OpenedBy grammar opened opener)
    (more : String) : OpenedBy grammar { opened with text := opened.text ++ more } opener where
  started := h.started
  ne_nil := h.ne_nil
  begins := by
    rw [String.toList_append]
    exact h.begins.trans (List.prefix_append _ _)

/-- A group may open inside another. -/
def NestsIn (grammar : Grammar) (inner outer : OpenGroup) : Prop :=
  ∃ row, grammar.group? outer.group = some row ∧ inner.group ∈ row.nesting

/-- What holds of the groups of a lexer and the tokens that opened them. -/
structure Stacked (grammar : Grammar) (lexer : Lexer) (openers : List Token) : Prop where
  exist : GroupsExist grammar lexer
  openedBy : List.Forall₂ (OpenedBy grammar) lexer.groups openers
  nests : lexer.groups.IsChain (NestsIn grammar)

/-- Without open groups there is nothing to hold. -/
theorem stacked_of_nil (h : lexer.groups = []) : Stacked grammar lexer [] where
  exist := by
    rw [GroupsExist, h]
    exact List.forall_mem_nil _
  openedBy := by
    rw [h]
    exact .nil
  nests := by
    rw [h]
    exact .nil

/-- What holds of the stack does not depend on the rest of the lexer. -/
theorem Stacked.of_groups (h : Stacked grammar lexer openers) (hnext : next.groups = lexer.groups) :
    Stacked grammar next openers := by
  obtain ⟨hexist, hopened, hnests⟩ := h
  rw [GroupsExist, ← hnext] at hexist
  rw [← hnext] at hopened hnests
  exact ⟨hexist, hopened, hnests⟩

/-- Groups in front of the ones that are kept are closed. -/
theorem openersBehind_of_append {front kept : List OpenGroup}
    (hgroups : lexer.groups = front ++ kept) (hnext : next.depth = kept.length) :
    openersBehind grammar lexer next openers = openers.drop front.length := by
  have hdepth : lexer.depth = front.length + kept.length := by
    rw [depth, hgroups, List.length_append]
  rw [openersBehind, if_neg (by omega)]
  exact congrArg openers.drop (by omega)

/-- Inside a group only those open that it lists. -/
theorem nested?_of_opens? {symbol group : UInt16} {top : OpenGroup} {outer : List OpenGroup}
    (hgroups : lexer.groups = top :: outer) (hopens : lexer.opens? grammar symbol = some group) :
    ∃ row, grammar.group? top.group = some row ∧ grammar.nested? row symbol = some group := by
  cases hrow : grammar.group? top.group with
  | some row => exact ⟨row, rfl, (opens?_of_cons hgroups hrow symbol).symm.trans hopens⟩
  | none =>
    rw [opens?, hgroups] at hopens
    simp only [hrow, Option.map_none, Option.any_none, Bool.false_eq_true, if_false] at hopens
    split at hopens <;> cases hopens

/-- A group that a symbol opens anywhere is one that it opens outside of groups. -/
theorem started?_of_opens? {symbol group : UInt16}
    (hopens : lexer.opens? grammar symbol = some group) :
    grammar.started? symbol = some group := by
  cases hgroups : lexer.groups with
  | nil => exact (opens?_of_nil hgroups symbol).symm.trans hopens
  | cons top outer =>
    obtain ⟨row, -, hnested⟩ := nested?_of_opens? hgroups hopens
    exact Tables.started?_of_nested? hnested

/-- A group that is opened may open inside the innermost one. -/
theorem Stacked.opening (h : Stacked grammar lexer openers) {symbol : UInt16} {opened : OpenGroup}
    (hopens : lexer.opens? grammar symbol = some opened.group) :
    (opened :: lexer.groups).IsChain (NestsIn grammar) := by
  cases hgroups : lexer.groups with
  | nil => exact .singleton opened
  | cons top outer =>
    obtain ⟨row, hrow, hnested⟩ := nested?_of_opens? hgroups hopens
    have hlisted := (Option.filter_eq_some_iff.1 hnested).2
    have hnests := h.nests
    rw [hgroups] at hnests
    exact .cons_cons ⟨row, hrow, List.contains_iff_mem.1 hlisted⟩ hnests

/-- Groups are closed, and the text of the one below them grows. -/
theorem Stacked.grow (h : Stacked grammar lexer openers) {front outer : List OpenGroup}
    {top : OpenGroup} {more : String} (hgroups : lexer.groups = front ++ top :: outer)
    (hnext : next.groups = { top with text := top.text ++ more } :: outer) :
    Stacked grammar next (openersBehind grammar lexer next openers) := by
  have hopeners : openersBehind grammar lexer next openers = openers.drop front.length :=
    openersBehind_of_append hgroups (by rw [depth, hnext]; rfl)
  have hdropped : lexer.groups.drop front.length = top :: outer := by
    rw [hgroups, List.drop_left]
  have hopened := List.forall₂_drop front.length h.openedBy
  rw [hdropped] at hopened
  obtain ⟨opener, below, htop, houter, hbelow⟩ := List.forall₂_cons_left_iff.1 hopened
  have hnests : (top :: outer).IsChain (NestsIn grammar) := by
    rw [← hdropped]
    exact h.nests.drop front.length
  rw [hopeners, hbelow]
  constructor
  · rw [GroupsExist, hnext]
    have hexist := h.exist
    rw [GroupsExist, hgroups] at hexist
    intro opened hmem
    rcases List.mem_cons.1 hmem with rfl | hmem
    · exact hexist top (List.mem_append_right _ List.mem_cons_self)
    · exact hexist opened (List.mem_append_right _ (List.mem_cons_of_mem _ hmem))
  · rw [hnext]
    exact .cons (htop.grow more) houter
  · rw [hnext]
    -- where a group may open does not depend on its text
    have hsame : ∀ {other : OpenGroup}, NestsIn grammar top other →
        NestsIn grammar { top with text := top.text ++ more } other := id
    exact hnests.imp_head hsame

/-- A step without a token opens a group, or lets the text of one grow. -/
theorem Stacked.again (h : Stacked grammar lexer openers) (hloaded : grammar.Loaded)
    (hstep : Step grammar (lexer.peek grammar).1 (lexer.peek grammar).2 (.again next)) :
    Stacked grammar next (openersBehind grammar lexer next openers) := by
  have hexist := hloaded.linked.groupsExist_step hstep h.exist
  cases hstep with
  | @opening group hopens =>
    have hopeners : openersBehind grammar lexer
        ((lexer.peek grammar).2.openGroup group (lexer.peek grammar).1) openers =
          (lexer.nextRaw grammar).1 :: openers := if_pos (Nat.lt_succ_self _)
    have hchars : (lexer.nextRaw grammar).1.chars = (lexer.peek grammar).1.text :=
      chars_tokenOf _
    rw [hopeners]
    refine ⟨hexist, .cons ⟨started?_of_opens? hopens, ?_, ?_⟩ h.openedBy, h.opening hopens⟩
    · rw [hchars]
      refine text_peek_ne_nil (.inr hloaded.endKind) ?_
      rw [kind?_of_opens? hopens]
      nofun
    · simp [hchars]
  | @closeInner top parent outer group hopens hgroups =>
    have hbefore : lexer.groups = [top] ++ parent :: outer := hgroups
    exact h.grow hbefore rfl
  | @gather top outer group hopens hgroups =>
    have hbefore : lexer.groups = [] ++ top :: outer := hgroups
    exact h.grow hbefore (congrArg Lexer.groups (gather_eq _ _ _ _))

/-- A token is yielded outside of groups, with the stack as it is, or as the outermost group. -/
theorem Stacked.token (h : Stacked grammar lexer openers) {token : Token}
    (hstep : Step grammar (lexer.peek grammar).1 (lexer.peek grammar).2 (.token token next)) :
    Stacked grammar next (openersBehind grammar lexer next openers) := by
  have hkept : ∀ {next : Lexer}, next.groups = lexer.groups →
      Stacked grammar next (openersBehind grammar lexer next openers) := by
    intro next hnext
    rw [openersBehind_of_append (List.nil_append _).symm (congrArg List.length hnext)]
    exact h.of_groups hnext
  cases hstep with
  | outside => exact hkept rfl
  | unknownGroup => exact hkept rfl
  | runaway => exact hkept rfl
  | @closeOuter top group hopens hgroups =>
    have hbefore : lexer.groups = [top] ++ [] := hgroups
    have hlength : openers.length ≤ [top].length := by
      rw [← h.openedBy.length_eq, hbefore]
      exact Nat.le_refl _
    rw [openersBehind_of_append hbefore rfl, List.drop_of_length_le hlength]
    exact stacked_of_nil rfl

/-! ## Stacks of sessions -/

theorem Session.stacked {stage : Stage} (h : Session grammar openers stage lexer)
    (hloaded : grammar.Loaded) : Stacked grammar lexer openers := by
  induction h with
  | empty => exact stacked_of_nil rfl
  | openText => exact stacked_of_nil rfl
  | reset => exact stacked_of_nil rfl
  | nextRaw _ ih => exact ih.of_groups rfl
  | consume _ n ih => exact ih.of_groups rfl
  | call _ ih => exact ih
  | again _ hstep ih => exact ih.again hloaded (hstep ▸ step_groupStep grammar _)
  | token _ hstep ih => exact ih.token (hstep ▸ step_groupStep grammar _)

/-- Between two calls groups are open only if the last token was the end of the input. -/
theorem Session.ended {last : Option Token} (h : Session grammar openers (.between last) lexer)
    (hloaded : grammar.Loaded) (hgroups : lexer.groups ≠ []) :
    ∃ token, last = some token ∧ grammar.kind? token.symbol = some .endOfInput := by
  generalize hstage : Stage.between last = stage at h
  induction h with
  | empty => exact absurd rfl hgroups
  | openText => exact absurd rfl hgroups
  | reset => exact absurd rfl hgroups
  | nextRaw _ ih => exact ih hgroups hstage
  | consume _ n ih => exact ih hgroups hstage
  | call => cases hstage
  | again => cases hstage
  | @token openers lexer next token hsession hstep =>
    cases hstage
    have hexist := (hsession.stacked hloaded).exist
    have hinside : next.inGroup = true := by simpa [inGroup] using hgroups
    exact ⟨token, rfl, (hloaded.kind_of_token hexist (hstep ▸ step_groupStep grammar _)).2 hinside⟩

/-- In every session, and also in the middle of its calls: a group that lies on another one is
    listed by it; there is an opening token for every open group, whose text is not empty and
    begins that of the group; and between two calls a group is open only if the last call of
    `nextToken` has returned the end of the input. To read a token, or all of them, leads from a
    session to a session. -/
theorem session_nests {bytes : List UInt8} (h : Grammar.ofBytes bytes = .ok grammar)
    {stage : Stage} (hsession : Session grammar openers stage lexer) :
    (∀ (i : Nat) (inner outer : OpenGroup), lexer.groups[i]? = some inner →
        lexer.groups[i + 1]? = some outer →
        ∃ row, grammar.group? outer.group = some row ∧ inner.group ∈ row.nesting) ∧
      openers.length = lexer.depth ∧
      (∀ (i : Nat) (opened : OpenGroup) (opener : Token), lexer.groups[i]? = some opened →
        openers[i]? = some opener →
        opened.text ≠ "" ∧ opener.chars ≠ [] ∧ opener.chars <+: opened.text.toList) ∧
      ∀ last, stage = .between last →
        (lexer.groups ≠ [] →
          ∃ token, last = some token ∧ grammar.kind? token.symbol = some .endOfInput) ∧
        (∃ behind, Session grammar behind (.between (some (lexer.nextToken grammar).1))
          (lexer.nextToken grammar).2) ∧
        ∀ tokens next, lexer.tokenize grammar = some (tokens, next) →
          ∃ behind, Session grammar behind (.between tokens.getLast?) next := by
  have hloaded := Grammar.loaded_of_ofBytes h
  obtain ⟨-, hopened, hnests⟩ := hsession.stacked hloaded
  refine ⟨?_, hopened.length_eq.symm, ?_, ?_⟩
  · intro i inner outer hinner houter
    obtain ⟨hi, rfl⟩ := List.getElem?_eq_some_iff.1 hinner
    obtain ⟨hnext, rfl⟩ := List.getElem?_eq_some_iff.1 houter
    exact List.isChain_iff_getElem.1 hnests i hnext
  · intro i opened opener hgroup hopener
    obtain ⟨hi, rfl⟩ := List.getElem?_eq_some_iff.1 hgroup
    obtain ⟨hj, rfl⟩ := List.getElem?_eq_some_iff.1 hopener
    have hby : OpenedBy grammar lexer.groups[i] openers[i] := hopened.get hi hj
    refine ⟨fun hempty => ?_, hby.ne_nil, hby.begins⟩
    have hbegins := hby.begins
    rw [hempty] at hbegins
    exact hby.ne_nil (List.prefix_nil.1 hbegins)
  · rintro last rfl
    exact ⟨hsession.ended hloaded, hsession.nextToken (hloaded.nextToken?_eq lexer),
      fun _ _ => hsession.tokenize⟩

/-- Behind a letter that was looked at and consumed, the input ends in a comment inside a
    comment. -/
theorem session_nests_nestedFile :
    ∃ grammar openers token lexer, Grammar.ofBytes nestedFile = .ok grammar ∧
      Session grammar openers (.between (some token)) lexer ∧
      lexer.groups.map OpenGroup.text = ["(x", "(()"] ∧
      (∃ inner outer row, lexer.groups = [inner, outer] ∧
        grammar.group? outer.group = some row ∧ inner.group ∈ row.nesting) ∧
      openers.length = 2 ∧ grammar.kind? token.symbol = some .endOfInput := by
  have hpasses : Grammar.passes nestedFile (fun grammar =>
      let lexer := ((openText "x(()(x").nextRaw grammar).2.consume 1
      (lexer.nextToken grammar).2.groups.map OpenGroup.text == ["(x", "(()"]) = true := by
    decide +kernel
  obtain ⟨grammar, hgrammar, htest⟩ := Grammar.exists_of_passes hpasses
  have htexts := beq_iff_eq.1 htest
  have hlooked : Session grammar [] (.between none)
      (((openText "x(()(x").nextRaw grammar).2.consume 1) :=
    (Session.empty.openText "x(()(x").nextRaw.consume 1
  obtain ⟨-, -, -, hread⟩ := session_nests hgrammar hlooked
  obtain ⟨-, ⟨openers, hsession⟩, -⟩ := hread _ rfl
  obtain ⟨hnests, hlength, -, hbetween⟩ := session_nests hgrammar hsession
  obtain ⟨inner, outer, htwo⟩ := List.length_eq_two.1
    ((List.length_map OpenGroup.text).symm.trans (congrArg List.length htexts))
  obtain ⟨row, hrow, hlisted⟩ := hnests 0 inner outer (by rw [htwo]; rfl) (by rw [htwo]; rfl)
  obtain ⟨token, htoken, hkind⟩ := (hbetween _ rfl).1 (by rw [htwo]; nofun)
  cases htoken
  refine ⟨grammar, openers, _, _, hgrammar, hsession, htexts, ⟨inner, outer, row, htwo, hrow,
    hlisted⟩, ?_, hkind⟩
  rw [hlength, depth, htwo]
  rfl

end GoldTables.Lexer

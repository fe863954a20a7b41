import GoldTables.Proofs.LexerPlaces
import GoldTables.Proofs.LexerRuns

/-!
# No text is lost

Text moves from the input to the open groups, from a group to the one around
it, and from there to a token. Whatever groups open and close on the way, and
however they gather text, the tokens, the open groups and the rest together
hold every character of the input once, in its order.

A token that is yielded inside a group is the end of the input, which is not
consumed: its text is still part of the rest.

Results:
* `held_again`: a step without a token moves text, and keeps it.
* `readings_conserve_text`: so do all tokens read one after the other.
-/

namespace GoldTables

/-- The characters of a token's text. -/
def Token.chars (token : Token) : List Char := (token.payload.text?.getD "").toList

namespace Lexer

variable {grammar : Grammar} {lexer next : Lexer}

/-- The texts of the open groups, the outermost first. -/
def groupTexts (lexer : Lexer) : List Char :=
  lexer.groups.reverse.flatMap fun opened => opened.text.toList

/-- What a lexer still holds of its text. -/
def held (lexer : Lexer) : List Char := lexer.groupTexts ++ lexer.rest

/-- The characters that leave the lexer with a token: inside a group there are none. -/
def Reading.consumed (reading : Reading) : List Char :=
  if reading.inGroup then [] else reading.token.chars

theorem groupTexts_cons {top : OpenGroup} {outer : List OpenGroup}
    (h : lexer.groups = top :: outer) :
    lexer.groupTexts =
      (outer.reverse.flatMap fun opened => opened.text.toList) ++ top.text.toList := by
  rw [groupTexts, h, List.reverse_cons, List.flatMap_append]
  simp

theorem chars_tokenOf (stretch : Stretch) : (lexer.tokenOf stretch).chars = stretch.text :=
  String.toList_ofList

/-- The text of a group in the end, and the rest behind it, are what the group and the rest were
    before. -/
theorem closing_append_rest (group : Group) (top : OpenGroup) :
    ((lexer.peek grammar).2.closing group (lexer.peek grammar).1 top).1.toList ++
        ((lexer.peek grammar).2.closing group (lexer.peek grammar).1 top).2.rest =
      top.text.toList ++ lexer.rest := by
  rw [closing]
  cases group.ending with
  | openEnded => rfl
  | closed =>
    show (top.text ++ String.ofList _).toList ++ _ = _
    rw [String.toList_append, String.toList_ofList, List.append_assoc,
      append_rest_consume (List.prefix_refl _)]

/-- A step without a token keeps what the lexer holds. -/
theorem held_again
    (hstep : Step grammar (lexer.peek grammar).1 (lexer.peek grammar).2 (.again next)) :
    next.held = lexer.held := by
  cases hstep with
  | @opening group hopens =>
    have hgroups : ((lexer.peek grammar).2.openGroup group (lexer.peek grammar).1).groups =
      ⟨group, String.ofList (lexer.peek grammar).1.text, (lexer.peek grammar).2.position⟩ ::
        lexer.groups := rfl
    rw [held, groupTexts_cons hgroups, String.toList_ofList, List.append_assoc]
    exact congrArg _ (append_rest_consume (List.prefix_refl _))
  | @closeInner top parent outer group hopens hgroups =>
    have hbefore : lexer.groups = top :: parent :: outer := hgroups
    rw [held, groupTexts_cons rfl, held, groupTexts_cons hbefore, List.reverse_cons,
      List.flatMap_append, String.toList_append]
    simp only [List.append_assoc, List.flatMap_singleton]
    rw [closing_append_rest]
  | @gather top outer group hopens hgroups =>
    have hbefore : lexer.groups = top :: outer := hgroups
    rw [gather_eq, held, groupTexts_cons rfl, held, groupTexts_cons hbefore, String.toList_append,
      String.toList_ofList, List.append_assoc, List.append_assoc, List.append_assoc]
    exact congrArg _ (congrArg _ (append_rest_consume (group.advance.isPrefix_part _)))

/-- A token takes its text from what the lexer holds, unless it is yielded inside a group. -/
theorem held_token {token : Token}
    (hstep : Step grammar (lexer.peek grammar).1 (lexer.peek grammar).2 (.token token next)) :
    (Reading.mk token next.inGroup).consumed ++ next.held = lexer.held := by
  cases hstep with
  | outside hopens hgroups =>
    have hnone : lexer.groups = [] := hgroups
    have hout : ((lexer.peek grammar).2.consume (lexer.peek grammar).1.text.length).inGroup =
      false := by
      rw [inGroup, consume_groups, hgroups]
      rfl
    rw [Reading.consumed, hout, if_neg Bool.false_ne_true, chars_tokenOf, held, groupTexts,
      consume_groups, hgroups, held, groupTexts, hnone]
    exact append_rest_consume (List.prefix_refl _)
  | unknownGroup hopens hgroups =>
    have hin : (lexer.peek grammar).2.inGroup = true := by
      rw [inGroup, hgroups]
      rfl
    rw [Reading.consumed, hin, if_pos rfl]
    rfl
  | @closeOuter top group hopens hgroups =>
    have hbefore : lexer.groups = [top] := hgroups
    have hheld : lexer.held = top.text.toList ++ lexer.rest := by
      rw [held, groupTexts_cons hbefore]
      rfl
    rw [hheld]
    exact closing_append_rest group top
  | runaway hopens hgroups =>
    have hin : (lexer.peek grammar).2.inGroup = true := by
      rw [inGroup, hgroups]
      rfl
    rw [Reading.consumed, hin, if_pos rfl]
    rfl

theorem held_nextToken (lexer : Lexer) (grammar : Grammar) :
    (Reading.mk (lexer.nextToken grammar).1 (lexer.nextToken grammar).2.inGroup).consumed ++
      (lexer.nextToken grammar).2.held = lexer.held :=
  nextToken_of_invariant (fun current => current.held = lexer.held)
    (fun token next => (Reading.mk token next.inGroup).consumed ++ next.held = lexer.held)
    (fun _ _ h hstep => (held_again hstep).trans h)
    (fun _ _ _ h hstep => (held_token hstep).trans h)
    (fun _ h hinside => by rw [Reading.consumed, hinside, if_pos rfl]; exact h) rfl

theorem held_behind (lexer : Lexer) (grammar : Grammar) (n : Nat) :
    (lexer.readings grammar n).flatMap Reading.consumed ++ (lexer.behind grammar n).held =
      lexer.held := by
  induction n with
  | zero => rfl
  | succ n ih =>
    rw [readings_succ, List.flatMap_append, List.flatMap_singleton, List.append_assoc, behind_succ,
      held_nextToken, ih]

/-- The tokens that were read, the open groups and the rest make up the text. -/
theorem readings_conserve_text (grammar : Grammar) (text : String) (n : Nat) :
    ((openText text).readings grammar n).flatMap Reading.consumed ++
        ((openText text).behind grammar n).groupTexts ++
        ((openText text).behind grammar n).rest = text.toList := by
  rw [List.append_assoc]
  exact held_behind (openText text) grammar n

end Lexer

end GoldTables

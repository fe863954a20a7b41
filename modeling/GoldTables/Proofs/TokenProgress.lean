import GoldTables.Proofs.NestedGroups
import GoldTables.Proofs.TextConservation

/-!
# What a token takes from the text

Outside of groups the next token begins where the lexer is, with the stretch of
text that the automaton finds there: this stretch is the token, or it opens the
outermost group of one. Behind such a token there is less to read, unless it is
the end token. A token that is yielded while a group is open is the end of the
input. It takes nothing from the text, and is read again and again.

Results:
* `nextToken?_progress`: a token leaves less to read, or is read again and again.
* `outermost_again`: the outermost group keeps its place, and its text only grows.
* `nextToken_begins`, `chars_append_rest`: outside of groups a token begins where the lexer is, and
  takes its text from the rest.
* `nextToken_inside`: inside a group it begins at the first character that is not consumed.
-/

namespace GoldTables.Lexer

variable {grammar : Grammar} {lexer next : Lexer} {token : Token}

/-! ## Tokens that are read again -/

/-- What was looked at is not drawn again. -/
theorem peek_peek (lexer : Lexer) (grammar : Grammar) :
    (lexer.peek grammar).2.peek grammar = lexer.peek grammar := by
  have hdraw : ∀ n, (lexer.draw n).draw n = lexer.draw n := by
    intro n
    have hbuffered : max (max lexer.buffered n) n = max lexer.buffered n := by omega
    have hdrawn : n - max lexer.buffered n = 0 := by omega
    simp only [draw, hbuffered, hdrawn, Nat.add_zero]
  exact congrArg (Prod.mk _) (hdraw _)

/-- A token that takes nothing from the text is read again. -/
theorem nextToken?_of_looked
    (hstep : Step grammar (lexer.peek grammar).1 (lexer.peek grammar).2
      (.token token (lexer.peek grammar).2)) :
    (lexer.peek grammar).2.nextToken? grammar = some (token, (lexer.peek grammar).2) := by
  refine nextToken?_of_token (Step.groupStep_eq ?_)
  rw [peek_peek]
  exact hstep

/-- Outside of groups a token takes some of the text, unless it is the end token. -/
theorem outside_progress (grammar : Grammar) (hgroups : lexer.groups = []) :
    (lexer.peek grammar).1.symbol = grammar.endSymbol ∨
      lexer.rest ≠ [] ∧
        ((lexer.peek grammar).2.consume (lexer.peek grammar).1.text.length).work < lexer.work := by
  cases htext : (lexer.peek grammar).1.text with
  | nil => exact .inl (recognize_isEmpty (List.isEmpty_iff.2 htext))
  | cons c text =>
    right
    rw [← htext]
    have hrest : lexer.rest ≠ [] := by
      intro hrest
      rw [peek, hrest] at htext
      cases htext
    have hlt := length_consume_lt (by rw [htext]; exact Nat.succ_pos _)
      (length_peek_le lexer grammar) hrest
    rw [peek_rest] at hlt
    refine ⟨hrest, ?_⟩
    rw [work, work, consume_groups, peek_groups, hgroups]
    omega

/-- To close the outermost group leaves less to do. -/
theorem work_closing_lt {top : OpenGroup} (hgroups : lexer.groups = [top]) (group : Group)
    (stretch : Stretch) :
    { (lexer.closing group stretch top).2 with groups := [] }.work < lexer.work := by
  have hle : (lexer.closing group stretch top).2.rest.length ≤ lexer.rest.length := by
    rw [closing]
    cases group.ending with
    | openEnded => exact Nat.le_refl _
    | closed => exact length_consume_le _ _
  simp only [work, hgroups, List.length_cons, List.length_nil]
  omega

/-- Behind a token no group is open, and there is less to read unless it is the end token; or the
    same token is read again and again. -/
theorem nextToken?_progress (h : lexer.nextToken? grammar = some (token, next)) :
    (next.inGroup = false ∧ (token.symbol = grammar.endSymbol ∨ next.work < lexer.work)) ∨
      next.nextToken? grammar = some (token, next) := by
  -- at the end of the text there may be more work behind a step, but nothing is left to consume
  have hprogress : (next.inGroup = false ∧
      (token.symbol = grammar.endSymbol ∨ next.work < lexer.work)) ∨ next = lexer ∨
        next.nextToken? grammar = some (token, next) := by
    refine nextToken?_of_invariant
      (fun current => (current.work ≤ lexer.work ∨ current.rest = []) ∧
        (lexer.rest = [] → current = { lexer with groups := current.groups }))
      (fun token next =>
        (next.inGroup = false ∧ (token.symbol = grammar.endSymbol ∨ next.work < lexer.work)) ∨
          next = lexer ∨ next.nextToken? grammar = some (token, next))
      ?_ ?_ ⟨.inl (Nat.le_refl _), fun _ => rfl⟩ h
    · rintro current next ⟨hwork, hsame⟩ hstep
      by_cases hrest : current.rest = []
      · have hnext : next = { current with groups := next.groups } := hstep.lexer_of_rest hrest
        refine ⟨.inr (by rw [hnext]; exact hrest), fun hnil => ?_⟩
        rw [hsame hnil] at hnext
        exact hnext
      · refine ⟨.inl ?_, fun hnil => absurd (by rw [hsame hnil]; exact hnil) hrest⟩
        exact Nat.le_of_lt (Nat.lt_of_lt_of_le (hstep.work_lt (.inl hrest))
          (hwork.resolve_right hrest))
    · rintro current token next ⟨hwork, hsame⟩ hstep
      cases hstep with
      | outside hopens hgroups =>
        refine .inl ⟨by simp [inGroup, hgroups], ?_⟩
        have hnone : current.groups = [] := hgroups
        rcases outside_progress grammar hnone with hend | ⟨hrest, hless⟩
        · exact .inl hend
        · exact .inr (Nat.lt_of_lt_of_le hless (hwork.resolve_right hrest))
      | @closeOuter top group hopens hgroups hgroup hfinish =>
        rcases hwork with hwork | hrest
        · exact .inl ⟨rfl, .inr (Nat.lt_of_lt_of_le (work_closing_lt hgroups _ _) hwork)⟩
        · have hback := (Step.closeOuter hopens hgroups hgroup hfinish).lexer_of_rest hrest
          by_cases hnone : lexer.work = 0
          · -- nothing was left to do, and the lexer is back where it was
            rw [work] at hnone
            have hnil : lexer.rest = [] := List.length_eq_zero_iff.1 (by omega)
            have hclosed : lexer.groups = [] := List.length_eq_zero_iff.1 (by omega)
            refine .inr (.inl (hback.trans ?_))
            rw [hsame hnil]
            show { lexer with groups := [] } = lexer
            rw [← hclosed]
          · refine .inl ⟨rfl, .inr ?_⟩
            have hdone : Lexer.work { current with groups := [] } = 0 := by
              rw [work, hrest]
              rfl
            exact lt_of_eq_of_lt ((congrArg work hback).trans hdone) (Nat.pos_of_ne_zero hnone)
      | unknownGroup hopens hgroups hgroup =>
        exact .inr (.inr (nextToken?_of_looked (.unknownGroup hopens hgroups hgroup)))
      | runaway hopens hgroups hgroup hfinish hkind =>
        exact .inr (.inr (nextToken?_of_looked (.runaway hopens hgroups hgroup hfinish hkind)))
  rcases hprogress with hless | rfl | hrepeats
  · exact .inl hless
  · exact .inr h
  · exact .inr hrepeats

/-- Once a group was open behind a token, one is open behind the tokens that follow. -/
theorem inGroup_behind_succ {text : String} {n : Nat}
    (h : ((openText text).behind grammar n).inGroup = true) :
    ((openText text).behind grammar (n + 1)).inGroup = true := by
  cases n with
  | zero => cases h
  | succ n =>
    rw [behind_succ] at h
    rw [behind_succ, behind_succ]
    cases hnext : ((openText text).behind grammar n).nextToken? grammar with
    | none => exact (inGroup_of_never (inGroup_of_never hnext).2).1
    | some found =>
      obtain ⟨token, next⟩ := found
      rw [nextToken_of_nextToken? hnext] at h ⊢
      rcases nextToken?_progress hnext with ⟨houtside, -⟩ | hrepeats
      · rw [houtside] at h
        cases h
      · rw [nextToken_of_nextToken? hrepeats]
        exact h

/-! ## Where tokens begin -/

/-- The outermost group that is open was opened first, and stays where it began. Its text grows at
    the end. -/
theorem outermost_again
    (hstep : Step grammar (lexer.peek grammar).1 (lexer.peek grammar).2 (.again next)) :
    (lexer.groups = [] ∧ ∃ group, next.groups = [grammar.openAt group lexer.place]) ∨
      ∃ outermost more, lexer.groups.getLast? = some outermost ∧
        next.groups.getLast? = some { outermost with text := outermost.text ++ more } := by
  have hgrown : ∀ (top : OpenGroup) (outer : List OpenGroup) (more : String),
      ∃ outermost grown, (top :: outer).getLast? = some outermost ∧
        ({ top with text := top.text ++ more } :: outer).getLast? =
          some { outermost with text := outermost.text ++ grown } := by
    intro top outer more
    cases outer with
    | nil => exact ⟨top, more, rfl, rfl⟩
    | cons parent outer =>
      refine ⟨(parent :: outer).getLast (List.cons_ne_nil _ _), "", ?_, ?_⟩
      · rw [List.getLast?_cons_cons, List.getLast?_eq_some_getLast]
      · rw [List.getLast?_cons_cons, List.getLast?_eq_some_getLast (List.cons_ne_nil _ _),
          String.append_empty]
  cases hstep with
  | @opening group hopens =>
    cases hgroups : lexer.groups with
    | nil =>
      refine .inl ⟨rfl, group, ?_⟩
      show _ :: lexer.groups = _
      rw [hgroups]
      rfl
    | cons top outer =>
      obtain ⟨outermost, hlast⟩ : ∃ outermost, lexer.groups.getLast? = some outermost :=
        ⟨_, List.getLast?_eq_some_getLast (by rw [hgroups]; exact List.cons_ne_nil _ _)⟩
      refine .inr ⟨outermost, "", hgroups ▸ hlast, ?_⟩
      rw [String.append_empty]
      show (_ :: lexer.groups).getLast? = _
      rw [List.getLast?_cons, hlast]
      rfl
  | @closeInner top parent outer group hopens hgroups =>
    have hbefore : lexer.groups = top :: parent :: outer := hgroups
    rw [hbefore, List.getLast?_cons_cons]
    exact .inr (hgrown parent outer _)
  | @gather top outer group hopens hgroups =>
    have hbefore : lexer.groups = top :: outer := hgroups
    rw [hbefore, gather_eq]
    exact .inr (hgrown top outer _)

/-- The outermost open group began at a place, with the stretch of text there. -/
def BeganAt (grammar : Grammar) (place : Place) (lexer : Lexer) : Prop :=
  ∃ outermost, lexer.groups.getLast? = some outermost ∧ outermost.position = place.position ∧
    (grammar.markAt place).text <+: outermost.text.toList

theorem BeganAt.again {place : Place} (h : BeganAt grammar place lexer)
    (hstep : Step grammar (lexer.peek grammar).1 (lexer.peek grammar).2 (.again next)) :
    BeganAt grammar place next := by
  obtain ⟨first, hfirst, hposition, htext⟩ := h
  rcases outermost_again hstep with ⟨hgroups, -⟩ | ⟨outermost, more, hlast, hnext⟩
  · rw [hgroups] at hfirst
    cases hfirst
  · rw [hfirst] at hlast
    cases hlast
    refine ⟨_, hnext, hposition, htext.trans ?_⟩
    rw [String.toList_append]
    exact List.prefix_append _ _

/-- Outside of groups, a token behind which no group is open begins where the lexer is, with the
    stretch of text there. -/
theorem nextToken_begins (hgroups : lexer.groups = [])
    (houtside : (lexer.nextToken grammar).2.inGroup = false) :
    (lexer.nextToken grammar).1.position = lexer.position ∧
      (grammar.markAt lexer.place).text <+: (lexer.nextToken grammar).1.chars := by
  refine nextToken_of_invariant
    (fun current => current = lexer ∨ BeganAt grammar lexer.place current)
    (fun token next => next.inGroup = false →
      token.position = lexer.position ∧ (grammar.markAt lexer.place).text <+: token.chars)
    ?_ ?_ (fun last _ hinside hout => absurd hinside (by rw [hout]; nofun)) (.inl rfl) houtside
  · rintro current next (rfl | hbegan) hstep
    · rcases outermost_again hstep with ⟨-, group, hnext⟩ | ⟨outermost, more, hlast, -⟩
      · refine .inr ⟨grammar.openAt group current.place, by rw [hnext]; rfl, rfl, ?_⟩
        simp only [Grammar.openAt, String.toList_ofList, List.prefix_refl]
      · rw [hgroups] at hlast
        cases hlast
    · exact .inr (hbegan.again hstep)
  · intro current token next hcurrent hstep hout
    cases hstep with
    | outside hopens hnone =>
      rcases hcurrent with rfl | ⟨outermost, hlast, -⟩
      · exact ⟨rfl, by rw [chars_tokenOf]; exact List.prefix_refl _⟩
      · rw [show current.groups = [] from hnone] at hlast
        cases hlast
    | @closeOuter top group hopens hone =>
      rcases hcurrent with rfl | ⟨outermost, hlast, hposition, htext⟩
      · rw [show current.groups = [top] from hone] at hgroups
        cases hgroups
      · rw [show current.groups = [top] from hone] at hlast
        cases hlast
        refine ⟨hposition, htext.trans ?_⟩
        show _ <+: (closing _ group _ _).1.toList
        rw [closing]
        cases group.ending with
        | openEnded => exact List.prefix_refl _
        | closed =>
          show _ <+: (top.text ++ _).toList
          rw [String.toList_append]
          exact List.prefix_append _ _
    | unknownGroup hopens hgroups =>
      rw [inGroup, hgroups] at hout
      cases hout
    | runaway hopens hgroups =>
      rw [inGroup, hgroups] at hout
      cases hout

/-- Such a token takes its text from the rest, which begins with it. -/
theorem chars_append_rest (hgroups : lexer.groups = [])
    (houtside : (lexer.nextToken grammar).2.inGroup = false) :
    (lexer.nextToken grammar).1.chars ++ (lexer.nextToken grammar).2.rest = lexer.rest := by
  have hbehind : (lexer.nextToken grammar).2.groups = [] := by simpa [inGroup] using houtside
  have hheld := held_nextToken lexer grammar
  rw [held, held, groupTexts, groupTexts, hgroups, hbehind, Reading.consumed, houtside] at hheld
  exact hheld

/-- A token behind which a group is open begins at the first character that is not consumed. -/
theorem nextToken_inside (hinside : (lexer.nextToken grammar).2.inGroup = true) :
    (lexer.nextToken grammar).1.position = (lexer.nextToken grammar).2.position ∧
      (lexer.nextToken grammar).1.chars <+: (lexer.nextToken grammar).2.rest := by
  refine nextToken_of_invariant (fun _ => True)
    (fun token next => next.inGroup = true →
      token.position = next.position ∧ token.chars <+: next.rest)
    (fun _ _ _ _ => trivial) ?_ (fun _ _ _ _ => ⟨rfl, List.nil_prefix⟩) trivial hinside
  intro current token next _ hstep hin
  cases hstep with
  | outside hopens hgroups =>
    rw [inGroup, consume_groups, hgroups] at hin
    cases hin
  | closeOuter => cases hin
  | unknownGroup =>
    exact ⟨rfl, by rw [chars_tokenOf]; exact isPrefix_recognize grammar current.rest⟩
  | runaway =>
    exact ⟨rfl, by rw [chars_tokenOf]; exact isPrefix_recognize grammar current.rest⟩

end GoldTables.Lexer

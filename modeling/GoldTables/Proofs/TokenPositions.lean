import GoldTables.Proofs.TokenProgress
import Mathlib.Data.List.Induction

/-!
# Positions of tokens

A position is taken before a token is consumed, and travels with the open group
until the group is closed, while text is consumed in whole stretches, character
by character, or not at all. Counting from the start of the text gives the same
line and column: the position of a token is that behind the characters in front
of its text, and the position of the lexer is that behind all characters it has
consumed.

Results:
* `Position.advanceBy_start`: the position behind a text, counted from its characters.
* `reaches_behind`: the lexer is at the position behind what it has consumed.
* `position_of_nextToken`: so is every token, with respect to the characters in front of it.
-/

namespace GoldTables

/-! ## Counting -/

/-- The position behind a text. Its line is the number of line feeds, and its column the number of
    characters behind the last of these other than carriage returns. -/
def Position.behind (text : List Char) : Position :=
  ⟨text.count '\n', ((text.reverse.takeWhile (· ≠ '\n')).filter (· ≠ '\r')).length⟩

theorem Position.behind_concat (text : List Char) (c : Char) :
    Position.behind (text ++ [c]) = (Position.behind text).advance c := by
  unfold behind advance
  rw [List.reverse_append, List.reverse_singleton, List.singleton_append]
  by_cases hfeed : c = '\n'
  · subst hfeed
    simp
  · by_cases hreturn : c = '\r'
    · subst hreturn
      simp
    · simp [hfeed, hreturn]

/-- To advance from the start over a text is to count. -/
theorem Position.advanceBy_start (text : List Char) :
    Position.start.advanceBy text = .behind text := by
  induction text using List.reverseRecOn with
  | nil => rfl
  | append_singleton text c ih =>
    rw [advanceBy_append, ih, behind_concat]
    rfl

/-- No line or column is higher than the number of characters. -/
theorem Position.line_add_column_le (text : List Char) :
    (Position.behind text).line + (Position.behind text).column ≤ text.length := by
  induction text using List.reverseRecOn with
  | nil => exact Nat.le_refl 0
  | append_singleton text c ih =>
    rw [behind_concat, List.length_append, List.length_singleton, advance]
    split
    · simp only
      omega
    · split
      · omega
      · simp only
        omega

/-! ## Places that are reached -/

/-- A place in a text: the characters in front of it are counted by its position. -/
def Place.In (source : List Char) (place : Place) : Prop :=
  ∃ read, source = read ++ place.rest ∧ place.position = .behind read

theorem Place.In.skip {source : List Char} {place : Place} (h : place.In source) (n : Nat) :
    (place.skip n).In source := by
  obtain ⟨read, hsource, hposition⟩ := h
  refine ⟨read ++ place.rest.take n, ?_, ?_⟩
  · rw [Place.rest_skip, List.append_assoc, List.take_append_drop, hsource]
  · show place.position.advanceBy _ = _
    rw [hposition, ← Position.advanceBy_start, ← Position.advanceBy_start,
      Position.advanceBy_append]

theorem Place.In.line_add_column_le {source : List Char} {place : Place} (h : place.In source) :
    place.position.line + place.position.column ≤ source.length := by
  obtain ⟨read, rfl, hposition⟩ := h
  rw [hposition, List.length_append]
  exact Nat.le_trans (Position.line_add_column_le read) (Nat.le_add_right _ _)

namespace Lexer

variable {grammar : Grammar} {lexer : Lexer} {source : List Char}

/-- A step skips some of the text. -/
theorem exists_skip {step : GroupStep}
    (hstep : Step grammar (lexer.peek grammar).1 (lexer.peek grammar).2 step) :
    ∃ n, step.lexer.place = lexer.place.skip n := by
  have hclosing : ∀ group top, ∃ n,
      ((lexer.peek grammar).2.closing group (lexer.peek grammar).1 top).2.place =
        lexer.place.skip n := by
    intro group top
    rw [place_closing]
    cases group.ending with
    | openEnded => exact ⟨0, rfl⟩
    | closed => exact ⟨_, rfl⟩
  cases hstep with
  | opening => exact ⟨_, place_openGroup _⟩
  | outside => exact ⟨_, place_consume (Nat.le_refl _)⟩
  | unknownGroup => exact ⟨0, rfl⟩
  | closeOuter => exact hclosing _ _
  | closeInner => exact hclosing _ _
  | runaway => exact ⟨0, rfl⟩
  | gather => exact ⟨_, place_gather _ _ _⟩

theorem reaches_nextToken (h : lexer.place.In source) :
    (lexer.nextToken grammar).2.place.In source := by
  refine nextToken_of_invariant (fun current => current.place.In source)
    (fun _ next => next.place.In source) ?_ ?_ (fun _ hlast _ => hlast) h
  · intro current next hcurrent hstep
    obtain ⟨n, hn⟩ := exists_skip hstep
    exact (congrArg (Place.In source) hn).mpr (hcurrent.skip n)
  · intro current token next hcurrent hstep
    obtain ⟨n, hn⟩ := exists_skip hstep
    exact (congrArg (Place.In source) hn).mpr (hcurrent.skip n)

/-- Behind any number of tokens, the lexer is at the position behind what it has consumed. -/
theorem reaches_behind (grammar : Grammar) (text : String) (n : Nat) :
    ((openText text).behind grammar n).place.In text.toList := by
  induction n with
  | zero => exact ⟨[], rfl, rfl⟩
  | succ n ih =>
    rw [behind_succ]
    exact reaches_nextToken ih

/-! ## Tokens -/

/-- Take the lexer of a text behind any number of tokens, the next token, and the lexer behind it,
    which is at the position behind all characters that it has consumed.

    If no group is open then, none was open before, and the text of the token takes up what was
    consumed since. It begins with the stretch of text that was recognized there, which opens the
    outermost group if the token is that of a group. The position of the token is that behind the
    characters in front. If a group is open, the token begins at the first character that is not
    consumed, and has its position.

    No line or column is higher than the number of characters: 32 bits are enough for both if the
    text has fewer than 2 ^ 32 of them. -/
theorem position_of_nextToken (grammar : Grammar) (text : String) (n : Nat) :
    let before := (openText text).behind grammar n
    let token := (before.nextToken grammar).1
    let after := (before.nextToken grammar).2
    (∃ read, text.toList = read ++ after.rest ∧ after.position = .behind read) ∧
      (after.inGroup = false →
        before.inGroup = false ∧ (grammar.markAt before.place).text <+: token.chars ∧
          ∃ front, text.toList = front ++ before.rest ∧
            text.toList = front ++ token.chars ++ after.rest ∧
            token.position = .behind front) ∧
      (after.inGroup = true →
        ∃ front, text.toList = front ++ after.rest ∧ token.chars <+: after.rest ∧
          token.position = .behind front) ∧
      token.position.line + token.position.column ≤ text.length ∧
      after.position.line + after.position.column ≤ text.length := by
  intro before token after
  have hbefore : before.place.In text.toList := reaches_behind grammar text n
  have hafter : after.place.In text.toList := reaches_nextToken hbefore
  have hlength : text.length = text.toList.length := rfl
  rw [hlength]
  cases hinGroup : after.inGroup with
  | true =>
    obtain ⟨hposition, hchars⟩ := nextToken_inside hinGroup
    obtain ⟨read, hread, hat⟩ := id hafter
    refine ⟨⟨read, hread, hat⟩, fun hout => absurd hout.symm Bool.false_ne_true,
      fun _ => ⟨read, hread, hchars, hposition.trans hat⟩, ?_, hafter.line_add_column_le⟩
    rw [show token.position = after.position from hposition]
    exact hafter.line_add_column_le
  | false =>
    have houtside : before.inGroup = false := by
      cases hin : before.inGroup with
      | false => rfl
      | true =>
        have hstays := inGroup_behind_succ hin
        rw [behind_succ] at hstays
        exact absurd (hinGroup.symm.trans hstays) Bool.false_ne_true
    have hnone : before.groups = [] := by simpa [inGroup] using houtside
    obtain ⟨hposition, hmark⟩ := nextToken_begins hnone hinGroup
    have htaken : token.chars ++ after.rest = before.rest := chars_append_rest hnone hinGroup
    obtain ⟨front, hfront, hat⟩ := id hbefore
    refine ⟨hafter, fun _ => ⟨houtside, hmark, front, hfront, ?_, hposition.trans hat⟩,
      fun hin => absurd hin Bool.false_ne_true, ?_, hafter.line_add_column_le⟩
    · rw [List.append_assoc, htaken]
      exact hfront
    · rw [show token.position = before.position from hposition]
      exact hbefore.line_add_column_le

end Lexer

end GoldTables

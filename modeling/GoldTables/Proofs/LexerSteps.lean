import GoldTables.Lexer.Groups

/-!
# What a step of the lexer does

`Step` lists what may become of the next stretch of text, one constructor for
each way through the groups. Properties of tokens are proved by cases on it,
and none of them unfolds `groupStep`.

Results:
* `step_groupStep`, `Step.groupStep_eq`: the steps of the lexer are those listed.
* `Step.work_lt`: a step without a token leaves less work, except at the end of a text whose end
  symbol does not stand for the end of the input.
* `Step.lexer_of_rest`: at the end of the text a step changes nothing but the groups.
-/

namespace GoldTables.Lexer

/-- The lexer behind a step. -/
def GroupStep.lexer : GroupStep → Lexer
  | .again lexer | .token _ lexer => lexer

variable {grammar : Grammar} {lexer next : Lexer}

/-- The text of a group in the end, and the lexer behind its closing mark. -/
def closing (lexer : Lexer) (group : Group) (stretch : Stretch) (top : OpenGroup) :
    String × Lexer :=
  match group.ending with
  | .openEnded => (top.text, lexer)
  | .closed => (top.text ++ String.ofList stretch.text, lexer.consume stretch.text.length)

/-- What a step makes of the next stretch of text `stretch`, where `looked` is the lexer that has
    looked at it. -/
inductive Step (grammar : Grammar) (stretch : Stretch) (looked : Lexer) : GroupStep → Prop where
  /-- A group is opened. -/
  | opening {group : UInt16} (hopens : looked.opens? grammar stretch.symbol = some group) :
    Step grammar stretch looked (.again (looked.openGroup group stretch))
  /-- Outside of groups the stretch is a token. -/
  | outside (hopens : looked.opens? grammar stretch.symbol = none) (hgroups : looked.groups = []) :
    Step grammar stretch looked
      (.token (looked.tokenOf stretch) (looked.consume stretch.text.length))
  /-- The open group does not exist. -/
  | unknownGroup {top : OpenGroup} {outer : List OpenGroup}
    (hopens : looked.opens? grammar stretch.symbol = none) (hgroups : looked.groups = top :: outer)
    (hgroup : grammar.group? top.group = none) :
    Step grammar stretch looked (.token (looked.tokenOf stretch) looked)
  /-- The outermost group is closed. -/
  | closeOuter {top : OpenGroup} {group : Group}
    (hopens : looked.opens? grammar stretch.symbol = none) (hgroups : looked.groups = [top])
    (hgroup : grammar.group? top.group = some group) (hfinish : stretch.symbol = group.finish) :
    Step grammar stretch looked
      (.token ⟨group.container, .text (looked.closing group stretch top).1, top.position, 0⟩
        { (looked.closing group stretch top).2 with groups := [] })
  /-- An inner group is closed. -/
  | closeInner {top parent : OpenGroup} {outer : List OpenGroup} {group : Group}
    (hopens : looked.opens? grammar stretch.symbol = none)
    (hgroups : looked.groups = top :: parent :: outer)
    (hgroup : grammar.group? top.group = some group) (hfinish : stretch.symbol = group.finish) :
    Step grammar stretch looked
      (.again
        { (looked.closing group stretch top).2 with
          groups :=
            { parent with text := parent.text ++ (looked.closing group stretch top).1 } :: outer })
  /-- The input ends inside a group. -/
  | runaway {top : OpenGroup} {outer : List OpenGroup} {group : Group}
    (hopens : looked.opens? grammar stretch.symbol = none) (hgroups : looked.groups = top :: outer)
    (hgroup : grammar.group? top.group = some group) (hfinish : stretch.symbol ≠ group.finish)
    (hkind : grammar.kind? stretch.symbol = some .endOfInput) :
    Step grammar stretch looked (.token (looked.tokenOf stretch) looked)
  /-- The stretch, or its first character, becomes part of a group. -/
  | gather {top : OpenGroup} {outer : List OpenGroup} {group : Group}
    (hopens : looked.opens? grammar stretch.symbol = none) (hgroups : looked.groups = top :: outer)
    (hgroup : grammar.group? top.group = some group) (hfinish : stretch.symbol ≠ group.finish)
    (hkind : grammar.kind? stretch.symbol ≠ some .endOfInput) :
    Step grammar stretch looked (.again (looked.gather group.advance stretch top outer))

/-- Every step of the lexer is one of those listed. -/
theorem step_groupStep (grammar : Grammar) (lexer : Lexer) :
    Step grammar (lexer.peek grammar).1 (lexer.peek grammar).2 (lexer.groupStep grammar) := by
  rw [groupStep]
  generalize lexer.peek grammar = peeked
  obtain ⟨stretch, looked⟩ := peeked
  simp only
  split
  · next group hopens => exact .opening hopens
  · next hopens =>
    split
    · next hgroups => exact .outside hopens hgroups
    · next top outer hgroups =>
      split
      · next hgroup => exact .unknownGroup hopens hgroups hgroup
      · next group hgroup =>
        split
        · next hfinish =>
          cases outer with
          | nil => exact .closeOuter hopens hgroups hgroup hfinish
          | cons parent outer => exact .closeInner hopens hgroups hgroup hfinish
        · next hfinish =>
          split
          · next hkind => exact .runaway hopens hgroups hgroup hfinish hkind
          · next hkind => exact .gather hopens hgroups hgroup hfinish hkind

/-- A step that is listed is the step that the lexer takes. -/
theorem Step.groupStep_eq {step : GroupStep}
    (h : Step grammar (lexer.peek grammar).1 (lexer.peek grammar).2 step) :
    lexer.groupStep grammar = step := by
  unfold groupStep
  generalize lexer.peek grammar = peeked at h
  obtain ⟨stretch, looked⟩ := peeked
  simp only at h ⊢
  cases h with
  | opening hopens => simp only [hopens]
  | outside hopens hgroups => simp only [hopens, hgroups]
  | unknownGroup hopens hgroups hgroup => simp only [hopens, hgroups, hgroup]
  | closeOuter hopens hgroups hgroup hfinish =>
    simp only [hopens, hgroups, hgroup, if_pos hfinish]
    rfl
  | closeInner hopens hgroups hgroup hfinish =>
    simp only [hopens, hgroups, hgroup, if_pos hfinish]
    rfl
  | runaway hopens hgroups hgroup hfinish hkind =>
    simp only [hopens, hgroups, hgroup, if_neg hfinish, if_pos hkind]
  | gather hopens hgroups hgroup hfinish hkind =>
    simp only [hopens, hgroups, hgroup, if_neg hfinish, if_neg hkind]

/-! ## Less work -/

/-- Consuming characters that are buffered and that there are shortens the rest. -/
theorem length_consume_lt {n : Nat} (hpos : 0 < n) (hle : n ≤ lexer.buffered)
    (hrest : lexer.rest ≠ []) : (lexer.consume n).rest.length < lexer.rest.length := by
  rw [length_consume hle]
  have := List.length_pos_iff.2 hrest
  omega

theorem length_consume_le (lexer : Lexer) (n : Nat) :
    (lexer.consume n).rest.length ≤ lexer.rest.length := by
  simp [consume]

/-- A symbol that opens a group is an opening mark that knows the group. -/
theorem exists_row_of_opens? {symbol group : UInt16}
    (h : lexer.opens? grammar symbol = some group) :
    ∃ row, grammar.symbol? symbol = some row ∧ row.kind = .groupStart ∧
      row.group = some group := by
  rw [opens?] at h
  split at h
  · next row known hrow =>
    refine ⟨_, hrow, rfl, ?_⟩
    split at h
    · exact h
    · split at h
      · exact h
      · cases h
  · cases h

theorem kind?_of_opens? {symbol group : UInt16} (h : lexer.opens? grammar symbol = some group) :
    grammar.kind? symbol = some .groupStart := by
  obtain ⟨row, hrow, hkind, -⟩ := exists_row_of_opens? h
  rw [Tables.kind?, hrow, Option.map_some, hkind]

/-- The next stretch of text is empty only where it stands for the end of the input, or where there
    is no text, and the end symbol does not. -/
theorem text_peek_ne_nil
    (hend : lexer.rest ≠ [] ∨ grammar.kind? grammar.endSymbol = some .endOfInput)
    (hkind : grammar.kind? (lexer.peek grammar).1.symbol ≠ some .endOfInput) :
    (lexer.peek grammar).1.text ≠ [] := by
  have hrest : lexer.rest ≠ [] := by
    rcases hend with hrest | hend
    · exact hrest
    · intro hnil
      rw [peek, hnil] at hkind
      exact hkind hend
  exact List.length_pos_iff.1 ((recognize_length grammar lexer.rest).2 hrest)

/-- A step without a token consumes characters, or closes a group. -/
theorem Step.work_lt
    (hend : lexer.rest ≠ [] ∨ grammar.kind? grammar.endSymbol = some .endOfInput)
    (hstep : Step grammar (lexer.peek grammar).1 (lexer.peek grammar).2 (.again next)) :
    next.work < lexer.work := by
  have hshort : ∀ n, 0 < n → n ≤ (lexer.peek grammar).1.text.length →
      ((lexer.peek grammar).2.consume n).rest.length < lexer.rest.length := by
    intro n hpos hn
    refine length_consume_lt hpos (Nat.le_trans hn (length_peek_le lexer grammar)) ?_
    intro hnil
    have hempty : (lexer.peek grammar).1.text = [] := by
      rw [peek_rest] at hnil
      rw [peek, hnil]
      rfl
    rw [hempty, List.length_nil] at hn
    omega
  cases hstep with
  | opening hopens =>
    have htext := text_peek_ne_nil hend (by rw [kind?_of_opens? hopens]; nofun)
    have hlt := hshort _ (List.length_pos_iff.2 htext) (Nat.le_refl _)
    simp only [work, openGroup, List.length_cons, peek_groups]
    omega
  | @closeInner top parent outer group hopens hgroups =>
    have hbefore : lexer.groups = top :: parent :: outer := hgroups
    have hle : ((lexer.peek grammar).2.closing group (lexer.peek grammar).1 top).2.rest.length
        ≤ lexer.rest.length := by
      rw [closing]
      cases group.ending with
      | openEnded => exact Nat.le_refl _
      | closed => exact length_consume_le _ _
    simp only [work, hbefore, List.length_cons]
    omega
  | @gather top outer group hopens hgroups hgroup hfinish hkind =>
    have hbefore : lexer.groups = top :: outer := hgroups
    have hpos := List.length_pos_iff.2 (text_peek_ne_nil hend hkind)
    simp only [work, Lexer.gather, hbefore, List.length_cons]
    cases group.advance with
    | token =>
      have hlt := hshort _ hpos (Nat.le_refl _)
      simp only
      omega
    | character =>
      have hlt := hshort ((lexer.peek grammar).1.text.take 1).length
        (by rw [List.length_take]; omega) (by rw [List.length_take]; omega)
      simp only
      omega

/-! ## At the end of the text -/

theorem consume_zero (lexer : Lexer) : lexer.consume 0 = lexer := by
  simp [consume, Position.advanceBy]

/-- At the end of the text there is nothing to look at. -/
theorem peek_of_rest (hrest : lexer.rest = []) (grammar : Grammar) :
    lexer.peek grammar = (⟨grammar.endSymbol, []⟩, lexer) := by
  obtain ⟨rest, buffered, drawn, position, groups⟩ := lexer
  cases hrest
  simp [peek, Grammar.recognize, draw]

/-- At the end of the text a step changes nothing but the groups. -/
theorem Step.lexer_of_rest {step : GroupStep} (hrest : lexer.rest = [])
    (hstep : Step grammar (lexer.peek grammar).1 (lexer.peek grammar).2 step) :
    step.lexer = { lexer with groups := step.lexer.groups } := by
  have hclosing : ∀ group top, (lexer.closing group ⟨grammar.endSymbol, []⟩ top).2 = lexer := by
    intro group top
    rw [closing]
    cases group.ending with
    | openEnded => rfl
    | closed => exact consume_zero lexer
  rw [peek_of_rest hrest] at hstep
  cases hstep with
  | opening => simp only [GroupStep.lexer, openGroup, List.length_nil, consume_zero]
  | outside => simp only [GroupStep.lexer, List.length_nil, consume_zero]
  | unknownGroup => rfl
  | closeOuter => simp only [GroupStep.lexer, hclosing]
  | closeInner => simp only [GroupStep.lexer, hclosing]
  | runaway => rfl
  | @gather top outer group =>
    cases hadvance : group.advance <;>
      simp only [GroupStep.lexer, Lexer.gather, List.take_nil, List.length_nil, consume_zero]

end GoldTables.Lexer

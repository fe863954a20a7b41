import GoldTables.Proofs.LexerSteps

/-!
# Runs of the lexer, step by step

`nextToken?` takes a bounded number of steps. The bound is no restriction.
Before the end of the text every step without a token leaves less work. At the
end nothing is left to consume: a run that comes to a token there closes
groups, and opens one more at most, whose row is missing or which is closed at
once. Any other run goes round in a circle, or opens groups for ever.

In a grammar whose end symbol stands for the end of the input there always is a
next token.

Results:
* `nextToken?_eq_some_iff`: `nextToken?` finds the token behind any number of steps.
* `stepsWithin_of_work`: if the end symbol stands for the end of the input, there is a token within
  the work that is left.
* `nextToken?_of_invariant`, `nextToken_of_invariant`: what holds of the token and the lexer behind
  it.
* `nextToken_text`: every token carries a text.
* `readings_succ`: the tokens read one after the other.
-/

namespace GoldTables.Lexer

variable {grammar : Grammar} {lexer next : Lexer} {token : Token}

section Within

variable {n m : Nat}

theorem stepsWithin_token (hstep : lexer.groupStep grammar = .token token next) :
    stepsWithin grammar (n + 1) lexer = .token token next := by
  rw [stepsWithin, hstep]

theorem stepsWithin_again (hstep : lexer.groupStep grammar = .again next) :
    stepsWithin grammar (n + 1) lexer = stepsWithin grammar n next := by
  rw [stepsWithin, hstep]

theorem stepsWithin_mono (hle : n ≤ m) (h : stepsWithin grammar n lexer = .token token next) :
    stepsWithin grammar m lexer = .token token next := by
  induction n generalizing m lexer with
  | zero => cases h
  | succ n ih =>
    obtain ⟨m, rfl⟩ : ∃ k, m = k + 1 := ⟨m - 1, by omega⟩
    cases hstep : lexer.groupStep grammar with
    | token first behind =>
      rw [stepsWithin_token hstep] at h ⊢
      exact h
    | again behind =>
      rw [stepsWithin_again hstep] at h ⊢
      exact ih (Nat.le_of_succ_le_succ hle) h

/-! ## At the end of the text -/

/-- Which group may open depends on the innermost group alone. -/
theorem opens?_congr {other : Lexer}
    (h : lexer.groups.head?.map OpenGroup.group = other.groups.head?.map OpenGroup.group)
    (symbol : UInt16) : lexer.opens? grammar symbol = other.opens? grammar symbol := by
  unfold opens?
  cases hfirst : lexer.groups with
  | nil =>
    rw [hfirst] at h
    rw [List.head?_eq_none_iff.1 (Option.map_eq_none_iff.1 h.symm)]
  | cons top outer =>
    rw [hfirst] at h
    obtain ⟨opened, hopened, hsame⟩ := Option.map_eq_some_iff.1 h.symm
    obtain ⟨below, hsecond⟩ := List.head?_eq_some_iff.1 hopened
    rw [hsecond]
    simp only [hsame]

/-- At the end of the text, a step without a token leaves the lexer as it is, opens a group, or
    closes an inner one. -/
theorem again_of_rest (hrest : lexer.rest = []) (hstep : lexer.groupStep grammar = .again next) :
    next = { lexer with groups := next.groups } ∧
      (next.groups = lexer.groups ∨
        (∃ group, lexer.opens? grammar grammar.endSymbol = some group ∧
          next.groups = ⟨group, "", lexer.position⟩ :: lexer.groups) ∨
        ∃ top parent outer, lexer.groups = top :: parent :: outer ∧
          next.groups = { parent with text := parent.text ++ top.text } :: outer) := by
  have hsteps := step_groupStep grammar lexer
  rw [hstep] at hsteps
  refine ⟨hsteps.lexer_of_rest hrest, ?_⟩
  rw [peek_of_rest hrest] at hsteps
  cases hsteps with
  | @opening group hopens => exact .inr (.inl ⟨group, hopens, rfl⟩)
  | @closeInner top parent outer group hopens hgroups =>
    refine .inr (.inr ⟨top, parent, outer, hgroups, ?_⟩)
    cases hending : group.ending <;> simp [closing, hending]
  | @gather top outer group hopens hgroups =>
    left
    rw [hgroups]
    cases hadvance : group.advance <;> simp [Lexer.gather]

/-- A group that opens inside itself at the end of the text opens again and again. -/
theorem stepsWithin_of_nesting {group : UInt16} (hrest : lexer.rest = [])
    (htop : lexer.groups.head?.map OpenGroup.group = some group)
    (hopens : lexer.opens? grammar grammar.endSymbol = some group) (n : Nat) :
    ∃ last, stepsWithin grammar n lexer = .again last := by
  induction n generalizing lexer with
  | zero => exact ⟨lexer, rfl⟩
  | succ n ih =>
    have hstep : Step grammar (lexer.peek grammar).1 (lexer.peek grammar).2
        (.again (lexer.openGroup group ⟨grammar.endSymbol, []⟩)) := by
      rw [peek_of_rest hrest]
      exact .opening hopens
    rw [stepsWithin_again hstep.groupStep_eq]
    have hsame : (lexer.openGroup group ⟨grammar.endSymbol, []⟩).groups.head?.map OpenGroup.group =
        lexer.groups.head?.map OpenGroup.group := htop.symm
    refine ih ?_ rfl ((opens?_congr hsame _).trans hopens)
    rw [openGroup, List.length_nil, consume_zero]
    exact hrest

/-- At the end of the text, a run behind a group that opens comes to a token at once, or back in
    front of the group. -/
theorem stepsWithin_of_opened {group : UInt16} {behind : Lexer} (hrest : lexer.rest = [])
    (hopens : lexer.opens? grammar grammar.endSymbol = some group)
    (hbehind : behind = { lexer with groups := ⟨group, "", lexer.position⟩ :: lexer.groups })
    (h : stepsWithin grammar n behind = .token token next) :
    stepsWithin grammar 1 behind = .token token next ∨
      ∃ m, m < n ∧ stepsWithin grammar m lexer = .token token next := by
  induction n with
  | zero => cases h
  | succ n ih =>
    have hrestBehind : behind.rest = [] := by
      rw [hbehind]
      exact hrest
    cases hstep : behind.groupStep grammar with
    | token first last =>
      rw [stepsWithin_token hstep] at h ⊢
      exact .inl h
    | again last =>
      have hrun := h
      rw [stepsWithin_again hstep] at hrun
      obtain ⟨hlast, hsame | ⟨inner, hnests, -⟩ | ⟨top, parent, outer, hgroups, hclosed⟩⟩ :=
        again_of_rest hrestBehind hstep
      · -- the group stays open
        rw [hsame] at hlast
        rw [hlast] at hrun
        rcases ih hrun with hat | ⟨m, hm, hfront⟩
        · exact .inl hat
        · exact .inr ⟨m, Nat.lt_succ_of_lt hm, hfront⟩
      · -- a symbol knows one group, which opens inside itself for ever
        obtain ⟨row, hrow, -, hknown⟩ := exists_row_of_opens? hopens
        obtain ⟨other, hother, -, hknows⟩ := exists_row_of_opens? hnests
        rw [hrow] at hother
        cases hother
        rw [hknown] at hknows
        cases hknows
        obtain ⟨far, hfar⟩ :=
          stepsWithin_of_nesting hrestBehind (by rw [hbehind]; rfl) hnests (n + 1)
        rw [h] at hfar
        cases hfar
      · -- the group is closed, and leaves nothing
        rw [hbehind] at hgroups hlast
        obtain ⟨rfl, hbelow⟩ := List.cons.inj hgroups
        rw [String.append_empty] at hclosed
        rw [hlast, hclosed, ← hbelow] at hrun
        exact .inr ⟨n, Nat.lt_succ_self n, hrun⟩

/-- At the end of the text, a run that comes to a token takes at most one step for each open group,
    and two more. -/
theorem stepsWithin_of_rest (hrest : lexer.rest = [])
    (h : stepsWithin grammar n lexer = .token token next) :
    stepsWithin grammar (lexer.depth + 2) lexer = .token token next := by
  induction n using Nat.strongRecOn generalizing lexer with
  | ind n ih =>
    cases n with
    | zero => cases h
    | succ n =>
      cases hstep : lexer.groupStep grammar with
      | token first behind =>
        rw [stepsWithin_token hstep] at h ⊢
        exact h
      | again behind =>
        rw [stepsWithin_again hstep] at h
        obtain ⟨hbehind,
          hsame | ⟨group, hopens, hopened⟩ | ⟨top, parent, outer, hgroups, hclosed⟩⟩ :=
          again_of_rest hrest hstep
        · -- the lexer stays as it is, and the rest of the run is one from here
          rw [hsame] at hbehind
          rw [hbehind] at h
          exact ih n (Nat.lt_succ_self n) hrest h
        · rw [hopened] at hbehind
          rcases stepsWithin_of_opened hrest hopens hbehind h with hat | ⟨m, hm, hfront⟩
          · refine stepsWithin_mono (Nat.le_add_left 2 _) ?_
            rw [stepsWithin_again hstep]
            exact hat
          · exact ih m (Nat.lt_succ_of_lt hm) hrest hfront
        · have hdepth : lexer.depth = behind.depth + 1 := by
            rw [depth, depth, hgroups, hclosed]
            rfl
          have hfew := ih n (Nat.lt_succ_self n) (by rw [hbehind]; exact hrest) h
          rw [hdepth, stepsWithin_again hstep]
          exact hfew

/-! ## The bound is no restriction -/

/-- A token comes within the bound, or never. -/
theorem stepsWithin_stepBound (h : stepsWithin grammar n lexer = .token token next) :
    stepsWithin grammar lexer.stepBound lexer = .token token next := by
  induction n generalizing lexer with
  | zero => cases h
  | succ n ih =>
    by_cases hrest : lexer.rest = []
    · refine stepsWithin_mono ?_ (stepsWithin_of_rest hrest h)
      rw [stepBound, work, depth]
      omega
    · cases hstep : lexer.groupStep grammar with
      | token first behind =>
        rw [stepsWithin_token hstep] at h
        rw [stepBound, stepsWithin_token hstep, h]
      | again behind =>
        rw [stepsWithin_again hstep] at h
        have hsteps := step_groupStep grammar lexer
        rw [hstep] at hsteps
        have hless := hsteps.work_lt (.inl hrest)
        have hbound : stepsWithin grammar (behind.stepBound + 1) lexer = .token token next := by
          rw [stepsWithin_again hstep]
          exact ih h
        exact stepsWithin_mono (by rw [stepBound, stepBound]; omega) hbound

theorem nextTokenWithin_eq_some_iff :
    nextTokenWithin grammar n lexer = some (token, next) ↔
      stepsWithin grammar n lexer = .token token next := by
  rw [nextTokenWithin]
  cases stepsWithin grammar n lexer with
  | token first behind => simp [GroupStep.token?]
  | again behind => simp [GroupStep.token?]

/-- `nextToken?` finds the token behind any number of steps. -/
theorem nextToken?_eq_some_iff :
    lexer.nextToken? grammar = some (token, next) ↔
      ∃ n, stepsWithin grammar n lexer = .token token next := by
  rw [nextToken?, nextTokenWithin_eq_some_iff]
  exact ⟨fun h => ⟨_, h⟩, fun ⟨_, h⟩ => stepsWithin_stepBound h⟩

/-- If the end symbol stands for the end of the input, a token comes within more steps than there is
    work left. -/
theorem stepsWithin_of_work (hend : grammar.kind? grammar.endSymbol = some .endOfInput)
    (hwork : lexer.work < n) :
    ∃ token next, stepsWithin grammar n lexer = .token token next := by
  induction n generalizing lexer with
  | zero => omega
  | succ n ih =>
    cases hstep : lexer.groupStep grammar with
    | token token next => exact ⟨token, next, stepsWithin_token hstep⟩
    | again next =>
      have hsteps := step_groupStep grammar lexer
      rw [hstep] at hsteps
      have hless := hsteps.work_lt (.inr hend)
      rw [stepsWithin_again hstep]
      exact ih (by omega)

end Within

/-! ## The next token -/

theorem nextToken?_of_token (hstep : lexer.groupStep grammar = .token token next) :
    lexer.nextToken? grammar = some (token, next) :=
  nextToken?_eq_some_iff.2 ⟨1, stepsWithin_token hstep⟩

/-- A step without a token does not change what the next token is. -/
theorem nextToken?_of_again (hstep : lexer.groupStep grammar = .again next) :
    lexer.nextToken? grammar = next.nextToken? grammar := by
  apply Option.ext
  rintro ⟨token, behind⟩
  rw [nextToken?_eq_some_iff, nextToken?_eq_some_iff]
  constructor
  · rintro ⟨n, hn⟩
    cases n with
    | zero => cases hn
    | succ n =>
      rw [stepsWithin_again hstep] at hn
      exact ⟨n, hn⟩
  · rintro ⟨n, hn⟩
    exact ⟨n + 1, by rw [stepsWithin_again hstep]; exact hn⟩

theorem nextToken_of_nextToken? (h : lexer.nextToken? grammar = some (token, next)) :
    lexer.nextToken grammar = (token, next) := by
  rw [nextToken?, nextTokenWithin_eq_some_iff] at h
  rw [nextToken, h]

theorem nextToken_of_token (hstep : lexer.groupStep grammar = .token token next) :
    lexer.nextToken grammar = (token, next) :=
  nextToken_of_nextToken? (nextToken?_of_token hstep)

/-- Behind steps without a token a group is open. -/
theorem inGroup_of_stepsWithin {n : Nat} (h : stepsWithin grammar (n + 1) lexer = .again next) :
    next.inGroup = true := by
  induction n generalizing lexer with
  | zero =>
    have hsteps := step_groupStep grammar lexer
    rw [stepsWithin] at h
    cases hstep : lexer.groupStep grammar with
    | token token behind =>
      rw [hstep] at h
      cases h
    | again behind =>
      rw [hstep] at h hsteps
      cases h
      cases hsteps <;> rfl
  | succ n ih =>
    cases hstep : lexer.groupStep grammar with
    | token token behind =>
      rw [stepsWithin_token hstep] at h
      cases h
    | again behind =>
      rw [stepsWithin_again hstep] at h
      exact ih h

section Invariant

variable (inv : Lexer → Prop) (post : Token → Lexer → Prop)
  (hagain : ∀ lexer next, inv lexer →
    Step grammar (lexer.peek grammar).1 (lexer.peek grammar).2 (.again next) → inv next)
  (htoken : ∀ lexer token next, inv lexer →
    Step grammar (lexer.peek grammar).1 (lexer.peek grammar).2 (.token token next) →
      post token next)

include hagain htoken

/-- An invariant of the steps that yield no token, when a number of them is taken. -/
theorem stepsWithin_of_invariant (h : inv lexer) (n : Nat) :
    (∃ token next, stepsWithin grammar n lexer = .token token next ∧ post token next) ∨
      ∃ last, stepsWithin grammar n lexer = .again last ∧ inv last := by
  induction n generalizing lexer with
  | zero => exact .inr ⟨lexer, rfl, h⟩
  | succ n ih =>
    have hsteps := step_groupStep grammar lexer
    cases hstep : lexer.groupStep grammar with
    | token token next =>
      rw [hstep] at hsteps
      exact .inl ⟨token, next, stepsWithin_token hstep, htoken lexer token next h hsteps⟩
    | again next =>
      rw [hstep] at hsteps
      rw [stepsWithin_again hstep]
      exact ih (hagain lexer next h hsteps)

/-- Such an invariant holds when there is a token. -/
theorem nextToken?_of_invariant (h : inv lexer)
    (hnext : lexer.nextToken? grammar = some (token, next)) : post token next := by
  rw [nextToken?, nextTokenWithin_eq_some_iff] at hnext
  rcases stepsWithin_of_invariant inv post hagain htoken h lexer.stepBound with
    ⟨first, behind, hrun, hpost⟩ | ⟨last, hrun, -⟩
  · rw [hnext] at hrun
    cases hrun
    exact hpost
  · rw [hnext] at hrun
    cases hrun

/-- Where there never is a token, it holds behind the steps taken, and a group is open there. -/
theorem nextToken_of_invariant
    (hnever : ∀ last, inv last → last.inGroup = true →
      post (last.tokenOf ⟨grammar.endSymbol, []⟩) last)
    (h : inv lexer) : post (lexer.nextToken grammar).1 (lexer.nextToken grammar).2 := by
  rw [nextToken]
  rcases stepsWithin_of_invariant inv post hagain htoken h lexer.stepBound with
    ⟨first, behind, hrun, hpost⟩ | ⟨last, hrun, hinv⟩
  · rw [hrun]
    exact hpost
  · have hinside := inGroup_of_stepsWithin hrun
    rw [hrun]
    exact hnever last hinv hinside

end Invariant

/-- Where there never is a token, a group is open behind the steps taken, and there never is one. -/
theorem inGroup_of_never (h : lexer.nextToken? grammar = none) :
    (lexer.nextToken grammar).2.inGroup = true ∧
      (lexer.nextToken grammar).2.nextToken? grammar = none := by
  refine nextToken_of_invariant (fun current => current.nextToken? grammar = none)
    (fun _ next => next.inGroup = true ∧ next.nextToken? grammar = none) ?_ ?_
    (fun _ hnone hinside => ⟨hinside, hnone⟩) h
  · intro current next hnone hstep
    rw [← nextToken?_of_again hstep.groupStep_eq]
    exact hnone
  · intro current token next hnone hstep
    rw [nextToken?_of_token hstep.groupStep_eq] at hnone
    cases hnone

/-- Every token of the lexer carries a text. -/
theorem nextToken_text (lexer : Lexer) (grammar : Grammar) :
    ∃ text, (lexer.nextToken grammar).1.payload = .text text := by
  refine nextToken_of_invariant (fun _ => True)
    (fun token _ => ∃ text, token.payload = .text text) (fun _ _ _ _ => trivial) ?_
    (fun _ _ _ => ⟨_, rfl⟩) trivial
  intro lexer token next _ hstep
  cases hstep with
  | outside => exact ⟨_, rfl⟩
  | unknownGroup => exact ⟨_, rfl⟩
  | closeOuter => exact ⟨_, rfl⟩
  | runaway => exact ⟨_, rfl⟩

/-! ## Tokens one after the other -/

/-- A token as it was read, and whether a group was open behind it. -/
structure Reading where
  token : Token
  inGroup : Bool

/-- The first tokens that a lexer reads, in order. -/
def readings (grammar : Grammar) : Nat → Lexer → List Reading
  | 0, _ => []
  | n + 1, lexer =>
    let (token, lexer) := lexer.nextToken grammar
    ⟨token, lexer.inGroup⟩ :: readings grammar n lexer

/-- The lexer behind the first tokens. -/
def behind (grammar : Grammar) : Nat → Lexer → Lexer
  | 0, lexer => lexer
  | n + 1, lexer => behind grammar n (lexer.nextToken grammar).2

theorem behind_succ (n : Nat) (lexer : Lexer) :
    lexer.behind grammar (n + 1) = ((lexer.behind grammar n).nextToken grammar).2 := by
  induction n generalizing lexer with
  | zero => rfl
  | succ n ih => rw [behind, ih, behind]

/-- The next token is read behind the first ones. -/
theorem readings_succ (n : Nat) (lexer : Lexer) :
    lexer.readings grammar (n + 1) =
      lexer.readings grammar n ++
        [⟨((lexer.behind grammar n).nextToken grammar).1,
          (lexer.behind grammar (n + 1)).inGroup⟩] := by
  induction n generalizing lexer with
  | zero => rfl
  | succ n ih =>
    show _ :: readings grammar (n + 1) (lexer.nextToken grammar).2 = _
    rw [ih]
    rfl

/-- The tokens that are not noise. -/
def significant (grammar : Grammar) (readings : List Reading) : List Reading :=
  readings.filter fun reading => grammar.kind? reading.token.symbol ≠ some .noise

theorem significant_append (first second : List Reading) :
    significant grammar (first ++ second) =
      significant grammar first ++ significant grammar second :=
  List.filter_append first second

theorem significant_cons (reading : Reading) {readings : List Reading}
    (h : grammar.kind? reading.token.symbol ≠ some .noise) :
    significant grammar (reading :: readings) = reading :: significant grammar readings := by
  rw [significant, List.filter_cons_of_pos (by simpa using h)]
  rfl

theorem significant_cons_noise (reading : Reading) {readings : List Reading}
    (h : grammar.kind? reading.token.symbol = some .noise) :
    significant grammar (reading :: readings) = significant grammar readings := by
  rw [significant, List.filter_cons_of_neg (by simpa using h)]
  rfl

end GoldTables.Lexer

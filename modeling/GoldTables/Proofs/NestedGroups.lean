import GoldTables.Proofs.LexerPlaces
import GoldTables.Proofs.LoadedGrammars

/-!
# Groups inside groups

The lexer gathers groups on a stack, and decides about every stretch of text
by the innermost one. Groups can also be read without a stack: a nested group
is a part of the body around it, and is read as a whole before that goes on.
`ReadsBody` and `ReadsToken` are the rules of this recursive reading, and the
stack of the lexer is what the recursion has left to do.

A nested group may leave its closing mark in the input, where the group around
it reads it again; the input may end on any level of the recursion.

Results:
* `ReadsBody.leads`: on top of any stack, the lexer does with a group what the rules say.
* `Loaded.exists_readsBody`: the rules read every group, up to its end or that of the input.
* `readsToken_iff_nextToken`: the next token is the one that the rules read.
-/

namespace GoldTables

/-! ## The rules -/

/-- The group that a symbol opens outside of groups. -/
def Tables.started? (tables : Tables) (symbol : UInt16) : Option UInt16 :=
  match tables.symbol? symbol with
  | some { kind := .groupStart, group := some group, .. } => some group
  | _ => none

/-- The group that a symbol opens inside a group. -/
def Tables.nested? (tables : Tables) (group : Group) (symbol : UInt16) : Option UInt16 :=
  (tables.started? symbol).filter fun inner => group.nesting.contains inner

/-- A group whose opening mark is at a place. -/
def Grammar.openAt (grammar : Grammar) (group : UInt16) (place : Place) : OpenGroup :=
  ⟨group, String.ofList (grammar.markAt place).text, place.position⟩

/-- The place behind the stretch of text at a place. -/
def Grammar.behindMark (grammar : Grammar) (place : Place) : Place :=
  place.skip (grammar.markAt place).text.length

/-- What becomes of a group. -/
inductive Body where
  /-- It is closed: its text, and the place behind it. -/
  | closed (text : String) (behind : Place)
  /-- The input ends inside: how deep the recursion is there, what was gathered on its levels,
      the innermost first, and the place of the end. -/
  | runaway (depth : Nat) (levels : List OpenGroup) (stop : Place)

/-- A group of which some text was gathered is read on from a place. -/
inductive ReadsBody (grammar : Grammar) : OpenGroup → Place → Body → Prop where
  /-- A nested group is read as a whole and becomes part of the text. -/
  | nested {opened : OpenGroup} {place behind : Place} {group : Group} {inner : UInt16}
    {text : String} {body : Body} (hgroup : grammar.group? opened.group = some group)
    (hopens : grammar.nested? group (grammar.markAt place).symbol = some inner)
    (hinner : ReadsBody grammar (grammar.openAt inner place) (grammar.behindMark place)
      (.closed text behind))
    (hbody : ReadsBody grammar { opened with text := opened.text ++ text } behind body) :
    ReadsBody grammar opened place body
  /-- The input ends in a nested group. -/
  | nestedRunaway {opened : OpenGroup} {place stop : Place} {group : Group} {inner : UInt16}
    {depth : Nat} {levels : List OpenGroup} (hgroup : grammar.group? opened.group = some group)
    (hopens : grammar.nested? group (grammar.markAt place).symbol = some inner)
    (hinner : ReadsBody grammar (grammar.openAt inner place) (grammar.behindMark place)
      (.runaway depth levels stop)) :
    ReadsBody grammar opened place (.runaway (depth + 1) (levels ++ [opened]) stop)
  /-- The closing mark stays in the input. -/
  | finishOpen {opened : OpenGroup} {place : Place} {group : Group}
    (hgroup : grammar.group? opened.group = some group)
    (hopens : grammar.nested? group (grammar.markAt place).symbol = none)
    (hfinish : (grammar.markAt place).symbol = group.finish)
    (hending : group.ending = .openEnded) :
    ReadsBody grammar opened place (.closed opened.text place)
  /-- The closing mark is the last part of the text. -/
  | finishClosed {opened : OpenGroup} {place : Place} {group : Group}
    (hgroup : grammar.group? opened.group = some group)
    (hopens : grammar.nested? group (grammar.markAt place).symbol = none)
    (hfinish : (grammar.markAt place).symbol = group.finish)
    (hending : group.ending = .closed) :
    ReadsBody grammar opened place
      (.closed (opened.text ++ String.ofList (grammar.markAt place).text)
        (grammar.behindMark place))
  /-- The input ends. -/
  | runaway {opened : OpenGroup} {place : Place} {group : Group}
    (hgroup : grammar.group? opened.group = some group)
    (hopens : grammar.nested? group (grammar.markAt place).symbol = none)
    (hfinish : (grammar.markAt place).symbol ≠ group.finish)
    (hend : grammar.kind? (grammar.markAt place).symbol = some .endOfInput) :
    ReadsBody grammar opened place (.runaway 1 [opened] place)
  /-- Anything else, or its first character, becomes part of the text. -/
  | gather {opened : OpenGroup} {place : Place} {group : Group} {body : Body}
    (hgroup : grammar.group? opened.group = some group)
    (hopens : grammar.nested? group (grammar.markAt place).symbol = none)
    (hfinish : (grammar.markAt place).symbol ≠ group.finish)
    (hkind : grammar.kind? (grammar.markAt place).symbol ≠ some .endOfInput)
    (hbody : ReadsBody grammar
      { opened with
        text := opened.text ++ String.ofList (group.advance.part (grammar.markAt place).text) }
      (place.skip (group.advance.part (grammar.markAt place).text).length) body) :
    ReadsBody grammar opened place body

/-- A token is read at a place outside of groups: the token, the place behind it, and, where the
    input ended inside a group, how deep that was and what was gathered on each level. -/
inductive ReadsToken (grammar : Grammar) (place : Place) :
    Token → Place → Nat → List OpenGroup → Prop where
  /-- What opens no group is a token by itself. -/
  | single (hstart : grammar.started? (grammar.markAt place).symbol = none) :
    ReadsToken grammar place (grammar.rawAt place) (grammar.behindMark place) 0 []
  /-- A group that is closed becomes a token. -/
  | closed {start : UInt16} {group : Group} {text : String} {behind : Place}
    (hstart : grammar.started? (grammar.markAt place).symbol = some start)
    (hgroup : grammar.group? start = some group)
    (hbody : ReadsBody grammar (grammar.openAt start place) (grammar.behindMark place)
      (.closed text behind)) :
    ReadsToken grammar place ⟨group.container, .text text, place.position, 0⟩ behind 0 []
  /-- The end of the input inside a group is a token. -/
  | runaway {start : UInt16} {depth : Nat} {levels : List OpenGroup} {stop : Place}
    (hstart : grammar.started? (grammar.markAt place).symbol = some start)
    (hbody : ReadsBody grammar (grammar.openAt start place) (grammar.behindMark place)
      (.runaway depth levels stop)) :
    ReadsToken grammar place (grammar.rawAt stop) stop depth levels

variable {grammar : Grammar}

/-! ## Stretches of text in loaded grammars -/

theorem Tables.started?_of_nested? {tables : Tables} {group : Group} {symbol inner : UInt16}
    (h : tables.nested? group symbol = some inner) : tables.started? symbol = some inner :=
  (Option.filter_eq_some_iff.1 h).1

theorem Tables.exists_of_started? {tables : Tables} {symbol group : UInt16}
    (h : tables.started? symbol = some group) :
    ∃ row, tables.symbol? symbol = some row ∧ row.kind = .groupStart ∧
      row.group = some group := by
  rw [started?] at h
  split at h
  · next row hrow =>
    cases h
    exact ⟨_, hrow, rfl, rfl⟩
  · cases h

namespace Grammar.Loaded

/-- A group that is started exists. -/
theorem exists_group_of_started? (h : grammar.Loaded) {symbol start : UInt16}
    (hstart : grammar.started? symbol = some start) :
    ∃ group, grammar.group? start = some group := by
  obtain ⟨row, hrow, -, hgroup⟩ := Tables.exists_of_started? hstart
  have hlt := h.groups row (Array.mem_of_getElem? hrow) start hgroup
  exact ⟨_, Array.getElem?_eq_getElem hlt⟩

/-- Only the end of the input is an empty stretch of text. -/
theorem text_ne_nil (h : grammar.Loaded) {place : Place}
    (hkind : grammar.kind? (grammar.markAt place).symbol ≠ some .endOfInput) :
    (grammar.markAt place).text ≠ [] := by
  intro hnil
  apply hkind
  rw [show (grammar.markAt place).symbol = grammar.endSymbol from
    recognize_isEmpty (List.isEmpty_iff.2 hnil)]
  exact h.endKind

theorem text_ne_nil_of_started? (h : grammar.Loaded) {place : Place} {start : UInt16}
    (hstart : grammar.started? (grammar.markAt place).symbol = some start) :
    (grammar.markAt place).text ≠ [] := by
  obtain ⟨row, hrow, hkind, -⟩ := Tables.exists_of_started? hstart
  apply h.text_ne_nil
  rw [Tables.kind?, hrow, Option.map_some, hkind]
  simp

end Grammar.Loaded

/-- Behind some of the text at a place there is less to consume. -/
theorem Place.length_skip_lt {place : Place} {text : List Char}
    (hstart : text <+: (grammar.markAt place).text) (hne : text ≠ []) :
    (place.skip text.length).rest.length < place.rest.length := by
  have hle := (hstart.trans (isPrefix_recognize grammar place.rest)).length_le
  have hpos := List.length_pos_iff.2 hne
  rw [Place.rest_skip, List.length_drop]
  omega

/-! ## The lexer follows the rules -/

namespace Lexer

variable {lexer next : Lexer} {opened : OpenGroup} {outer : List OpenGroup}

theorem opens?_of_nil (h : lexer.groups = []) (symbol : UInt16) :
    lexer.opens? grammar symbol = grammar.started? symbol := by
  unfold opens? Tables.started?
  cases grammar.symbol? symbol with
  | none => rfl
  | some row =>
    obtain ⟨index, name, kind, inner⟩ := row
    cases kind <;> cases inner <;> simp only [h]

theorem opens?_of_cons {group : Group} (h : lexer.groups = opened :: outer)
    (hgroup : grammar.group? opened.group = some group) (symbol : UInt16) :
    lexer.opens? grammar symbol = grammar.nested? group symbol := by
  unfold opens? Tables.nested? Tables.started?
  cases grammar.symbol? symbol with
  | none => rfl
  | some row =>
    obtain ⟨index, name, kind, inner⟩ := row
    cases kind <;> cases inner <;>
      simp only [h, hgroup, Option.map_some, Option.any_some, Option.filter_some,
        Option.filter_none]

/-- The lexer goes on from the group that it has opened. -/
theorem nextToken_opening (hloaded : grammar.Loaded) {start : UInt16}
    (hopens : lexer.opens? grammar (grammar.markAt lexer.place).symbol = some start) :
    ∃ next : Lexer, lexer.nextToken grammar = next.nextToken grammar ∧
      next.place = grammar.behindMark lexer.place ∧
      next.groups = grammar.openAt start lexer.place :: lexer.groups := by
  have hstep : Step grammar (lexer.peek grammar).1 (lexer.peek grammar).2
      (.again ((lexer.peek grammar).2.openGroup start (lexer.peek grammar).1)) := .opening hopens
  exact ⟨_, hloaded.nextToken_of_again hstep.groupStep_eq, place_openGroup start, rfl⟩

/-- What becomes of the lexer when the group on top of its stack comes to its end, or to that of
    the input: it goes on with the group around it, or yields a token. -/
def Leads (grammar : Grammar) (lexer : Lexer) (opened : OpenGroup) (outer : List OpenGroup) :
    Body → Prop
  | .closed text behind =>
    match outer with
    | [] => ∃ (group : Group) (next : Lexer), grammar.group? opened.group = some group ∧
        lexer.nextToken grammar = (⟨group.container, .text text, opened.position, 0⟩, next) ∧
        next.place = behind ∧ next.groups = []
    | parent :: outer => ∃ next : Lexer, lexer.nextToken grammar = next.nextToken grammar ∧
        next.place = behind ∧ next.groups = { parent with text := parent.text ++ text } :: outer
  | .runaway depth levels stop => ∃ next : Lexer,
      lexer.nextToken grammar = (grammar.rawAt stop, next) ∧ next.place = stop ∧
        next.groups = levels ++ outer ∧ levels.length = depth

/-- It does not matter how much of the group's text was gathered by then. -/
theorem Leads.of_eq {text : String} {body : Body}
    (heq : lexer.nextToken grammar = next.nextToken grammar)
    (h : Leads grammar next { opened with text := text } outer body) :
    Leads grammar lexer opened outer body := by
  cases body with
  | closed text behind => cases outer <;> (unfold Leads; rw [heq]; exact h)
  | runaway depth levels stop => unfold Leads; rw [heq]; exact h

/-- A closing mark ends the group, on any stack. -/
theorem leads_closing (hloaded : grammar.Loaded) {group : Group}
    (hgroups : lexer.groups = opened :: outer)
    (hgroup : grammar.group? opened.group = some group)
    (hopens : grammar.nested? group (grammar.markAt lexer.place).symbol = none)
    (hfinish : (grammar.markAt lexer.place).symbol = group.finish) :
    Leads grammar lexer opened outer
      (.closed ((lexer.peek grammar).2.closing group (lexer.peek grammar).1 opened).1
        ((lexer.peek grammar).2.closing group (lexer.peek grammar).1 opened).2.place) := by
  have hnone : (lexer.peek grammar).2.opens? grammar (lexer.peek grammar).1.symbol = none :=
    (opens?_of_cons hgroups hgroup _).trans hopens
  cases outer with
  | nil =>
    exact ⟨group, _, hgroup,
      nextToken_of_token (Step.closeOuter hnone hgroups hgroup hfinish).groupStep_eq, rfl, rfl⟩
  | cons parent outer =>
    have hstep := (Step.closeInner hnone hgroups hgroup hfinish).groupStep_eq
    exact ⟨_, hloaded.nextToken_of_again hstep, rfl, rfl⟩

end Lexer

open Lexer in
/-- On top of any stack, the lexer does with a group what the rules say. -/
theorem ReadsBody.leads (hloaded : grammar.Loaded) {opened : OpenGroup} {place : Place}
    {body : Body} (h : ReadsBody grammar opened place body) {lexer : Lexer}
    {outer : List OpenGroup} (hplace : lexer.place = place)
    (hgroups : lexer.groups = opened :: outer) : Leads grammar lexer opened outer body := by
  -- the recursion of a nested group runs on a stack with one more group
  induction h generalizing lexer outer with
  | nested hgroup hopens _ _ ihInner ihBody =>
    subst hplace
    obtain ⟨first, hfirst, hplaceFirst, hgroupsFirst⟩ := nextToken_opening hloaded
      ((opens?_of_cons hgroups hgroup _).trans hopens)
    rw [hgroups] at hgroupsFirst
    obtain ⟨second, hsecond, hplaceSecond, hgroupsSecond⟩ := ihInner hplaceFirst hgroupsFirst
    exact (ihBody hplaceSecond hgroupsSecond).of_eq (hfirst.trans hsecond)
  | nestedRunaway hgroup hopens _ ihInner =>
    subst hplace
    obtain ⟨first, hfirst, hplaceFirst, hgroupsFirst⟩ := nextToken_opening hloaded
      ((opens?_of_cons hgroups hgroup _).trans hopens)
    rw [hgroups] at hgroupsFirst
    obtain ⟨last, hlast, hplaceLast, hgroupsLast, hdepth⟩ := ihInner hplaceFirst hgroupsFirst
    refine ⟨last, hfirst.trans hlast, hplaceLast, ?_, ?_⟩
    · rw [hgroupsLast, List.append_assoc]
      rfl
    · rw [List.length_append, hdepth]
      rfl
  | finishOpen hgroup hopens hfinish hending =>
    subst hplace
    have hleads := leads_closing hloaded hgroups hgroup hopens hfinish
    rw [place_closing, closing, hending] at hleads
    exact hleads
  | finishClosed hgroup hopens hfinish hending =>
    subst hplace
    have hleads := leads_closing hloaded hgroups hgroup hopens hfinish
    rw [place_closing, closing, hending] at hleads
    exact hleads
  | runaway hgroup hopens hfinish hend =>
    subst hplace
    have hnone : (lexer.peek grammar).2.opens? grammar (lexer.peek grammar).1.symbol = none :=
      (opens?_of_cons hgroups hgroup _).trans hopens
    exact ⟨_, nextToken_of_token (Step.runaway hnone hgroups hgroup hfinish hend).groupStep_eq,
      rfl, hgroups, rfl⟩
  | gather hgroup hopens hfinish hkind _ ih =>
    subst hplace
    have hnone : (lexer.peek grammar).2.opens? grammar (lexer.peek grammar).1.symbol = none :=
      (opens?_of_cons hgroups hgroup _).trans hopens
    have hagain := hloaded.nextToken_of_again
      (Step.gather hnone hgroups hgroup hfinish hkind).groupStep_eq
    refine (ih (place_gather _ _ _) ?_).of_eq hagain
    rw [gather_eq]
    rfl

/-! ## The rules read everything -/

namespace Grammar.Loaded

/-- The rules read every group, and never go back in the text. -/
theorem exists_readsBody (h : grammar.Loaded) (opened : OpenGroup) (place : Place) {group : Group}
    (hgroup : grammar.group? opened.group = some group) :
    ∃ body, ReadsBody grammar opened place body ∧
      ∀ text behind, body = .closed text behind → behind.rest.length ≤ place.rest.length := by
  cases hopens : grammar.nested? group (grammar.markAt place).symbol with
  | some inner =>
    have hstart := Tables.started?_of_nested? hopens
    obtain ⟨row, hrow⟩ := h.exists_group_of_started? hstart
    have hlt : (grammar.behindMark place).rest.length < place.rest.length :=
      Place.length_skip_lt (List.prefix_refl _) (h.text_ne_nil_of_started? hstart)
    obtain ⟨innerBody, hinner, hback⟩ := h.exists_readsBody (grammar.openAt inner place)
      (grammar.behindMark place) hrow
    cases innerBody with
    | runaway depth levels stop => exact ⟨_, .nestedRunaway hgroup hopens hinner, by nofun⟩
    | closed text behind =>
      have hle := hback text behind rfl
      obtain ⟨body, hbody, hbehind⟩ := h.exists_readsBody
        { opened with text := opened.text ++ text } behind hgroup
      refine ⟨body, .nested hgroup hopens hinner hbody, ?_⟩
      intro last after hclosed
      have := hbehind last after hclosed
      omega
  | none =>
    by_cases hfinish : (grammar.markAt place).symbol = group.finish
    · cases hending : group.ending with
      | openEnded =>
        refine ⟨_, .finishOpen hgroup hopens hfinish hending, ?_⟩
        rintro _ _ ⟨⟩
        exact Nat.le_refl _
      | closed =>
        refine ⟨_, .finishClosed hgroup hopens hfinish hending, ?_⟩
        rintro _ _ ⟨⟩
        simp [behindMark]
    · by_cases hkind : grammar.kind? (grammar.markAt place).symbol = some .endOfInput
      · exact ⟨_, .runaway hgroup hopens hfinish hkind, by nofun⟩
      · have hlt := Place.length_skip_lt (group.advance.isPrefix_part (grammar.markAt place).text)
          (group.advance.part_ne_nil (h.text_ne_nil hkind))
        obtain ⟨body, hbody, hbehind⟩ := h.exists_readsBody { opened with
            text := opened.text ++ String.ofList (group.advance.part (grammar.markAt place).text) }
          (place.skip (group.advance.part (grammar.markAt place).text).length) hgroup
        refine ⟨body, .gather hgroup hopens hfinish hkind hbody, ?_⟩
        intro last after hclosed
        have := hbehind last after hclosed
        omega
termination_by place.rest.length
decreasing_by all_goals omega

/-- The rules read a token at every place. -/
theorem exists_readsToken (h : grammar.Loaded) (place : Place) :
    ∃ token behind depth levels, ReadsToken grammar place token behind depth levels := by
  cases hstart : grammar.started? (grammar.markAt place).symbol with
  | none => exact ⟨_, _, _, _, .single hstart⟩
  | some start =>
    obtain ⟨group, hgroup⟩ := h.exists_group_of_started? hstart
    obtain ⟨body, hbody, -⟩ := h.exists_readsBody (grammar.openAt start place)
      (grammar.behindMark place) hgroup
    cases body with
    | closed text behind => exact ⟨_, _, _, _, .closed hstart hgroup hbody⟩
    | runaway depth levels stop => exact ⟨_, _, _, _, .runaway hstart hbody⟩

end Grammar.Loaded

/-! ## Tokens -/

namespace Lexer

variable {lexer : Lexer} {token : Token} {behind : Place} {depth : Nat} {levels : List OpenGroup}

/-- A token that the rules read is the next token of the lexer. -/
theorem nextToken_of_readsToken (hloaded : grammar.Loaded) (hgroups : lexer.groups = [])
    (h : ReadsToken grammar lexer.place token behind depth levels) :
    ∃ next, lexer.nextToken grammar = (token, next) ∧ next.place = behind ∧ next.depth = depth ∧
      next.groups = levels := by
  cases h with
  | single hstart =>
    have hnone : (lexer.peek grammar).2.opens? grammar (lexer.peek grammar).1.symbol = none :=
      (opens?_of_nil hgroups _).trans hstart
    refine ⟨_, nextToken_of_token (Step.outside hnone hgroups).groupStep_eq,
      place_consume (Nat.le_refl _), ?_, hgroups⟩
    exact congrArg List.length hgroups
  | closed hstart hgroup hbody =>
    obtain ⟨first, hfirst, hplace, hopened⟩ := nextToken_opening hloaded
      ((opens?_of_nil hgroups _).trans hstart)
    rw [hgroups] at hopened
    obtain ⟨row, next, hrow, hnext, hbehind, hnone⟩ := hbody.leads hloaded hplace hopened
    rw [show grammar.group? (grammar.openAt _ lexer.place).group = _ from hgroup] at hrow
    cases hrow
    refine ⟨next, hfirst.trans hnext, hbehind, ?_, hnone⟩
    exact congrArg List.length hnone
  | runaway hstart hbody =>
    obtain ⟨first, hfirst, hplace, hopened⟩ := nextToken_opening hloaded
      ((opens?_of_nil hgroups _).trans hstart)
    rw [hgroups] at hopened
    obtain ⟨next, hnext, hstop, hlevels, hdepth⟩ := hbody.leads hloaded hplace hopened
    rw [List.append_nil] at hlevels
    refine ⟨next, hfirst.trans hnext, hstop, ?_, hlevels⟩
    exact (congrArg List.length hlevels).trans hdepth

/-- Outside of groups the next token is the one that the rules read, and the lexer behind it is
    where they say, with the groups open in which the input ended. -/
theorem readsToken_iff_nextToken {bytes : List UInt8} (h : Grammar.ofBytes bytes = .ok grammar)
    (hgroups : lexer.groups = []) (token : Token) (behind : Place) (depth : Nat)
    (levels : List OpenGroup) :
    ReadsToken grammar lexer.place token behind depth levels ↔
      (lexer.nextToken grammar).1 = token ∧ (lexer.nextToken grammar).2.place = behind ∧
        (lexer.nextToken grammar).2.depth = depth ∧
        (lexer.nextToken grammar).2.groups = levels := by
  have hloaded := Grammar.loaded_of_ofBytes h
  constructor
  · intro hreads
    obtain ⟨next, hnext, hbehind, hdepth, hlevels⟩ :=
      nextToken_of_readsToken hloaded hgroups hreads
    rw [hnext]
    exact ⟨rfl, hbehind, hdepth, hlevels⟩
  · rintro ⟨rfl, rfl, rfl, rfl⟩
    obtain ⟨token, behind, depth, levels, hreads⟩ := hloaded.exists_readsToken lexer.place
    obtain ⟨next, hnext, rfl, rfl, rfl⟩ := nextToken_of_readsToken hloaded hgroups hreads
    rw [hnext]
    exact hreads

end Lexer

/-- Comments in parentheses that hold comments. -/
def nestedFile : List UInt8 :=
  textBytes "Any header" ++ [
    kindRecord .tableCounts [.uint16 5, .uint16 2, .uint16 0, .uint16 3, .uint16 1, .uint16 1],
    kindRecord .symbol [.uint16 0, .string "EOF", .uint16 3],
    kindRecord .symbol [.uint16 1, .string "Error", .uint16 7],
    kindRecord .symbol [.uint16 2, .string "(", .uint16 4],
    kindRecord .symbol [.uint16 3, .string ")", .uint16 5],
    kindRecord .symbol [.uint16 4, .string "Comment", .uint16 2],
    kindRecord .group [.uint16 0, .string "Comment", .uint16 4, .uint16 2, .uint16 3, .uint16 0,
      .uint16 1, .empty, .uint16 1, .uint16 0],
    kindRecord .lrState [.uint16 0, .empty],
    kindRecord .characterSet [.uint16 0, .uint16 0, .uint16 1, .empty, .uint16 40, .uint16 40],
    kindRecord .characterSet [.uint16 1, .uint16 0, .uint16 1, .empty, .uint16 41, .uint16 41],
    kindRecord .dfaState [.uint16 0, .boolean false, .uint16 0, .empty,
      .uint16 0, .uint16 1, .empty, .uint16 1, .uint16 2, .empty],
    kindRecord .dfaState [.uint16 1, .boolean true, .uint16 2, .empty],
    kindRecord .dfaState [.uint16 2, .boolean true, .uint16 3, .empty]].flatMap recordBytes

/-- One comment is closed, and a second one inside it is not. -/
theorem Lexer.readsToken_nestedFile :
    ∃ grammar token behind levels, Grammar.ofBytes nestedFile = .ok grammar ∧
      (Lexer.openText "(()(x").groups = [] ∧
      ReadsToken grammar (Lexer.openText "(()(x").place token behind 2 levels ∧
      levels.map OpenGroup.text = ["(x", "(()"] := by
  have hpasses : Grammar.passes nestedFile (fun grammar =>
      ((Lexer.openText "(()(x").nextToken grammar).2.groups.map OpenGroup.text ==
        ["(x", "(()"]) = true := by
    decide +kernel
  obtain ⟨grammar, hgrammar, htest⟩ := Grammar.exists_of_passes hpasses
  have hlevels := beq_iff_eq.1 htest
  have hdepth : ((Lexer.openText "(()(x").nextToken grammar).2.depth = 2 := by
    rw [Lexer.depth, ← List.length_map OpenGroup.text, hlevels]
    rfl
  exact ⟨grammar, _, _, _, hgrammar, rfl,
    (readsToken_iff_nextToken hgrammar rfl _ _ _ _).2 ⟨rfl, rfl, hdepth, rfl⟩, hlevels⟩

end GoldTables

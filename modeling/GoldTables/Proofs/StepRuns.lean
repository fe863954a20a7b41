import GoldTables.Proofs.ParserSteps
import Mathlib.Data.Finset.Card

/-!
# Runs of the parser, step by step

`parse` and `parseTree` take a bounded number of steps. The bound of `parse`
is no restriction: a parser that has not come to a message within it renames
the token on top of its stack again and again, and goes round in a circle, or
it is stuck behind a lexer that never comes to a token. So both can be replaced
by runs that simply take one step after the other.

Results:
* `parse_eq_some_iff`: `parse` finds the message behind any number of silent steps.
* `answers_iff`: `parseTree` answers as the run up to the first final message does.
-/

namespace GoldTables

/-! ## Renaming in a circle -/

section Orbits

variable {next : UInt16 → Option UInt16}

/-- The state that a number of steps lead to. -/
def orbit (next : UInt16 → Option UInt16) : Nat → UInt16 → Option UInt16
  | 0, state => some state
  | n + 1, state => (orbit next n state).bind next

theorem orbit_add (m n : Nat) (state : UInt16) :
    orbit next (m + n) state = (orbit next m state).bind (orbit next n) := by
  induction n with
  | zero => simp [orbit]
  | succ n ih => rw [← Nat.add_assoc, orbit, ih, Option.bind_assoc]; rfl

theorem orbit_isSome_of_le {m n : Nat} {state : UInt16} (hle : m ≤ n)
    (h : (orbit next n state).isSome) : (orbit next m state).isSome := by
  obtain ⟨d, rfl⟩ := Nat.exists_eq_add_of_le hle
  rw [orbit_add] at h
  exact Option.isSome_of_isSome_bind h

/-- An orbit that comes back to a state never ends. -/
theorem orbit_isSome_of_eq {i j : Nat} {state : UInt16} (hij : i < j)
    (heq : orbit next i state = orbit next j state) (hsome : (orbit next j state).isSome)
    (m : Nat) :
    (orbit next m state).isSome := by
  induction m using Nat.strongRecOn with
  | ind m ih =>
    rcases Nat.lt_or_ge j m with hlt | hle
    · obtain ⟨d, rfl⟩ := Nat.exists_eq_add_of_le (Nat.le_of_lt hlt)
      rw [orbit_add, ← heq, ← orbit_add]
      exact ih (i + d) (by omega)
    · exact orbit_isSome_of_le hle hsome

/-- An orbit that ends in a table of states has no more steps than there are states. -/
theorem orbit_eq_none {size n : Nat} {state : UInt16}
    (hsize : ∀ state target, next state = some target → state.toNat < size)
    (h : orbit next n state = none) : orbit next (size + 1) state = none := by
  by_contra hne
  have hsome : (orbit next (size + 1) state).isSome := Option.isSome_iff_ne_none.2 hne
  let place : Nat → Nat := fun i => ((orbit next i state).map UInt16.toNat).getD 0
  have hplace : ∀ i ∈ Finset.range (size + 1), place i ∈ Finset.range size := by
    intro i hi
    rw [Finset.mem_range] at hi ⊢
    have hnext := orbit_isSome_of_le (Nat.succ_le_of_lt hi) hsome
    obtain ⟨target, htarget⟩ := Option.isSome_iff_exists.1 hnext
    obtain ⟨current, hcurrent, hstep⟩ := Option.bind_eq_some_iff.1 htarget
    show ((orbit next i state).map UInt16.toNat).getD 0 < size
    rw [hcurrent]
    exact hsize current target hstep
  obtain ⟨i, hi, j, hj, hne, heq⟩ :=
    Finset.exists_ne_map_eq_of_card_lt_of_maps_to (by simp) hplace
  rw [Finset.mem_range] at hi hj
  have hback : ∀ {i j : Nat}, i < j → j < size + 1 → place i = place j → False := by
    intro i j hij hj hplace
    have hjsome := orbit_isSome_of_le (Nat.le_of_lt hj) hsome
    obtain ⟨t, ht⟩ := Option.isSome_iff_exists.1 hjsome
    obtain ⟨s, hs⟩ := Option.isSome_iff_exists.1 (orbit_isSome_of_le (Nat.le_of_lt hij) hjsome)
    have hst : s.toNat = t.toNat := by simpa [place, hs, ht] using hplace
    have hsame : orbit next i state = orbit next j state := by
      rw [hs, ht, UInt16.toNat.inj hst]
    have := orbit_isSome_of_eq hij hsame hjsome n
    rw [h] at this
    cases this
  rcases Nat.lt_or_gt_of_ne hne with hlt | hgt
  · exact hback hlt hj heq
  · exact hback hgt hi heq.symm

end Orbits

/-- The state that the parser goes to when it renames the token on top of its stack, from a state,
    under a lookahead and on an exposed state. -/
def Tables.renamed? (tables : Tables) (lookahead exposed state : UInt16) : Option UInt16 :=
  match tables.action? state lookahead with
  | some (.reduce index) =>
    (tables.production? index).bind fun production =>
      if tables.isChain production then tables.goto? exposed production.head else none
  | _ => none

theorem Tables.renamed?_eq_some {tables : Tables} {lookahead exposed state target : UInt16} :
    tables.renamed? lookahead exposed state = some target ↔ ∃ index production,
      tables.action? state lookahead = some (.reduce index) ∧
        tables.production? index = some production ∧ tables.isChain production = true ∧
        tables.goto? exposed production.head = some target := by
  rw [renamed?]
  split
  · next index haction =>
    rw [Option.bind_eq_some_iff]
    constructor
    · rintro ⟨production, hproduction, h⟩
      split at h
      · next hchain => exact ⟨index, production, haction, hproduction, hchain, h⟩
      · cases h
    · rintro ⟨index, production, haction', hproduction, hchain, hgoto⟩
      rw [haction] at haction'
      cases haction'
      exact ⟨production, hproduction, by rw [if_pos hchain]; exact hgoto⟩
  · next hne =>
    constructor
    · nofun
    · rintro ⟨index, _, haction, _⟩
      exact absurd haction (hne index)

theorem Tables.toNat_lt_of_renamed? {tables : Tables} {lookahead exposed state target : UInt16}
    (h : tables.renamed? lookahead exposed state = some target) :
    state.toNat < tables.lrStates.size := by
  obtain ⟨index, _, haction, _⟩ := renamed?_eq_some.1 h
  obtain ⟨row, hrow, _⟩ := Option.bind_eq_some_iff.1 haction
  exact (Array.getElem?_eq_some_iff.1 hrow).1

namespace Parser

variable {grammar : Grammar} {parser next : Parser} {lookahead exposed : Token}
  {rest below : List Token}

/-- The parser may rename the token on top of its stack: if it does depends on its state only. -/
structure Poised (grammar : Grammar) (lookahead exposed : Token) (rest below : List Token)
    (parser : Parser) : Prop where
  handles : Handles grammar parser lookahead rest
  trim : parser.trim = true
  stack : ∃ top, parser.stack = top :: exposed :: below

theorem Poised.step_of_renamed {target : UInt16}
    (h : Poised grammar lookahead exposed rest below parser)
    (hrenamed : grammar.renamed? lookahead.symbol exposed.state parser.lrState = some target) :
    ∃ next, parser.step grammar = (none, next) ∧ next.lrState = target ∧
      Poised grammar lookahead exposed rest below next := by
  obtain ⟨index, production, haction, hproduction, hchain, hgoto⟩ :=
    Tables.renamed?_eq_some.1 hrenamed
  obtain ⟨top, hstack⟩ := h.stack
  have hreduces : Reduces grammar parser lookahead rest index production :=
    ⟨h.handles, haction, hproduction⟩
  have htrim : (parser.trim && grammar.isChain production) = true := by rw [h.trim, hchain]; rfl
  refine ⟨_, (Step.rename hreduces htrim hstack hgoto).step_eq, rfl, ?_⟩
  exact ⟨⟨h.handles.opened, h.handles.input, h.handles.outside, h.handles.kind⟩, h.trim, _, rfl⟩

/-- A silent step other than a renaming uses up the lookahead, unless the parser is stuck. -/
theorem length_input_lt (hstep : parser.step grammar = (none, next)) (hmoves : next ≠ parser) :
    next.input.length < parser.input.length ∨
      ∃ lookahead exposed rest below target,
        Poised grammar lookahead exposed rest below parser ∧
          grammar.renamed? lookahead.symbol exposed.state parser.lrState = some target := by
  cases step_eq_iff.1 hstep with
  | stuck => exact absurd rfl hmoves
  | noise _ hinput =>
    left
    rw [hinput]
    exact Nat.lt_succ_self _
  | shift h =>
    left
    rw [h.input]
    exact Nat.lt_succ_self _
  | rename h htrim hstack hgoto =>
    obtain ⟨htrim, hchain⟩ := Bool.and_eq_true_iff.1 htrim
    exact .inr ⟨_, _, _, _, _, ⟨h.toHandles, htrim, _, hstack⟩,
      Tables.renamed?_eq_some.2 ⟨_, _, h.action, h.production, hchain, hgoto⟩⟩

/-! ## Up to the next message -/

section Within

variable {n m : Nat} {found : Message × Parser}

theorem parseWithin_silent (hstep : parser.step grammar = (none, next)) :
    parseWithin grammar (n + 1) parser = parseWithin grammar n next := by
  rw [parseWithin, hstep]

theorem parseWithin_message {message : Message}
    (hstep : parser.step grammar = (some message, next)) :
    parseWithin grammar (n + 1) parser = some (message, next) := by
  rw [parseWithin, hstep]

theorem parseWithin_mono (hle : n ≤ m) (h : parseWithin grammar n parser = some found) :
    parseWithin grammar m parser = some found := by
  induction n generalizing m parser with
  | zero => cases h
  | succ n ih =>
    obtain ⟨m, rfl⟩ : ∃ k, m = k + 1 := ⟨m - 1, by omega⟩
    cases hstep : parser.step grammar with
    | mk message next =>
      cases message with
      | none =>
        rw [parseWithin_silent hstep] at h ⊢
        exact ih (Nat.le_of_succ_le_succ hle) h
      | some message =>
        rw [parseWithin_message hstep] at h ⊢
        exact h

/-- A parser that comes to a message moves. -/
theorem ne_of_silent (hstep : parser.step grammar = (none, next))
    (hfound : parseWithin grammar n parser = some found) : next ≠ parser := by
  rintro rfl
  induction n with
  | zero => cases hfound
  | succ n ih =>
    rw [parseWithin_silent hstep] at hfound
    exact ih hfound

/-- Renamings lead through the states of an orbit. -/
theorem Poised.exists_of_orbit {state : UInt16}
    (h : Poised grammar lookahead exposed rest below parser) (i : Nat)
    (horbit : orbit (grammar.renamed? lookahead.symbol exposed.state) i parser.lrState =
      some state) :
    ∃ next, next.lrState = state ∧ Poised grammar lookahead exposed rest below next ∧
      ∀ k, parseWithin grammar (i + k) parser = parseWithin grammar k next := by
  induction i generalizing state with
  | zero =>
    cases horbit
    exact ⟨parser, rfl, h, fun k => by rw [Nat.zero_add]⟩
  | succ i ih =>
    obtain ⟨current, hcurrent, hrenamed⟩ := Option.bind_eq_some_iff.1 horbit
    obtain ⟨middle, rfl, hpoised, hruns⟩ := ih hcurrent
    obtain ⟨next, hstep, hstate, hnext⟩ := hpoised.step_of_renamed hrenamed
    refine ⟨next, hstate, hnext, fun k => ?_⟩
    rw [Nat.add_assoc, hruns, Nat.add_comm 1 k, parseWithin_silent hstep]

/-- A parser that comes to a message renames at most once for every state. -/
theorem Poised.exists_settled (h : Poised grammar lookahead exposed rest below parser)
    (hfound : parseWithin grammar n parser = some found) :
    ∃ i next, i ≤ grammar.lrStates.size ∧ Poised grammar lookahead exposed rest below next ∧
      (∀ k, parseWithin grammar (i + k) parser = parseWithin grammar k next) ∧
      grammar.renamed? lookahead.symbol exposed.state next.lrState = none := by
  have hends : orbit (grammar.renamed? lookahead.symbol exposed.state) n parser.lrState = none := by
    cases horbit : orbit (grammar.renamed? lookahead.symbol exposed.state) n parser.lrState with
    | none => rfl
    | some state =>
      obtain ⟨next, _, _, hruns⟩ := h.exists_of_orbit n horbit
      have hnone := hruns 0
      rw [Nat.add_zero, hfound] at hnone
      cases hnone
  have hsize := orbit_eq_none (fun _ _ => Tables.toNat_lt_of_renamed?) hends
  -- the last state of the orbit
  obtain ⟨i, hi, state, hstate, hlast⟩ : ∃ i, i ≤ grammar.lrStates.size ∧ ∃ state,
      orbit (grammar.renamed? lookahead.symbol exposed.state) i parser.lrState = some state ∧
        grammar.renamed? lookahead.symbol exposed.state state = none := by
    generalize grammar.lrStates.size = size at hsize
    induction size with
    | zero => exact ⟨0, Nat.le_refl 0, parser.lrState, rfl, hsize⟩
    | succ size ih =>
      cases hprevious : orbit (grammar.renamed? lookahead.symbol exposed.state) (size + 1)
        parser.lrState with
      | none =>
        obtain ⟨i, hi, hstate⟩ := ih hprevious
        exact ⟨i, Nat.le_succ_of_le hi, hstate⟩
      | some state =>
        refine ⟨size + 1, Nat.le_refl _, state, hprevious, ?_⟩
        rw [orbit, hprevious] at hsize
        exact hsize
  obtain ⟨next, rfl, hnext, hruns⟩ := h.exists_of_orbit i hstate
  exact ⟨i, next, hi, hnext, hruns, hlast⟩

/-- A parser that comes to a message uses up a lookahead, or reports, after few renamings. -/
theorem exists_settled (hfound : parseWithin grammar n parser = some found) :
    ∃ i next, i ≤ grammar.lrStates.size ∧ next.input = parser.input ∧
      (∀ k, parseWithin grammar (i + k) parser = parseWithin grammar k next) ∧
      ∀ behind, next.step grammar = (none, behind) → behind.input.length < parser.input.length := by
  by_cases hpoised : ∃ lookahead exposed rest below,
    Poised grammar lookahead exposed rest below parser
  · obtain ⟨lookahead, exposed, rest, below, hpoised⟩ := hpoised
    obtain ⟨i, next, hi, hnext, hruns, hlast⟩ := hpoised.exists_settled hfound
    have hinput : next.input = parser.input :=
      hnext.handles.input.trans hpoised.handles.input.symm
    refine ⟨i, next, hi, hinput, hruns, fun behind hstep => ?_⟩
    have hmoves : behind ≠ next := ne_of_silent hstep
      ((hruns n).symm.trans (parseWithin_mono (Nat.le_add_left n i) hfound))
    rw [← hinput]
    rcases length_input_lt hstep hmoves with hlt | ⟨_, _, _, _, _, hsame, hrenamed⟩
    · exact hlt
    · -- what the parser is poised on is determined by its input and its stack
      obtain ⟨rfl, -⟩ := List.cons.inj (hnext.handles.input.symm.trans hsame.handles.input)
      obtain ⟨_, htop⟩ := hnext.stack
      obtain ⟨_, htop'⟩ := hsame.stack
      obtain ⟨-, hbelow⟩ := List.cons.inj (htop.symm.trans htop')
      obtain ⟨rfl, -⟩ := List.cons.inj hbelow
      rw [hlast] at hrenamed
      cases hrenamed
  · refine ⟨0, parser, Nat.zero_le _, rfl, fun k => by rw [Nat.zero_add], fun behind hstep => ?_⟩
    rcases length_input_lt hstep (ne_of_silent hstep hfound) with
      hlt | ⟨lookahead, exposed, rest, below, _, h, _⟩
    · exact hlt
    · exact absurd ⟨lookahead, exposed, rest, below, h⟩ hpoised

/-- A message comes within a bound if it does behind every step that uses up a lookahead. -/
theorem bound_of_settled {bound : Nat}
    (hbehind : ∀ behind : Parser, behind.input.length < parser.input.length →
      ∀ n, parseWithin grammar n behind = some found →
        parseWithin grammar bound behind = some found)
    (hfound : parseWithin grammar n parser = some found) :
    parseWithin grammar (bound + (grammar.lrStates.size + 2)) parser = some found := by
  obtain ⟨i, next, hi, hinput, hruns, hsettled⟩ := exists_settled hfound
  have hnext : parseWithin grammar n next = some found := by
    rw [← hruns]
    exact parseWithin_mono (Nat.le_add_left n i) hfound
  cases n with
  | zero => cases hfound
  | succ n =>
    cases hstep : next.step grammar with
    | mk message behind =>
      cases message with
      | some message =>
        rw [parseWithin_message hstep] at hnext
        have hsum : parseWithin grammar (i + (0 + 1)) parser = some found := by
          rw [hruns, parseWithin_message hstep]
          exact hnext
        exact parseWithin_mono (by omega) hsum
      | none =>
        rw [parseWithin_silent hstep] at hnext
        have hsum : parseWithin grammar (i + (bound + 1)) parser = some found := by
          rw [hruns, parseWithin_silent hstep]
          exact hbehind behind (hsettled behind hstep) n hnext
        exact parseWithin_mono (by omega) hsum

/-- A message comes within a bound for each token that waits, or never. -/
theorem parseWithin_bound (size : Nat) (hsize : parser.input.length ≤ size)
    (hfound : parseWithin grammar n parser = some found) :
    parseWithin grammar ((size + 1) * (grammar.lrStates.size + 2)) parser = some found := by
  induction size generalizing n parser with
  | zero =>
    rw [Nat.succ_mul, Nat.zero_mul]
    exact bound_of_settled (fun _ hlt => by omega) hfound
  | succ size ih =>
    rw [Nat.succ_mul]
    exact bound_of_settled (fun behind hlt n hbehind => ih (by omega) hbehind) hfound

/-- A message comes within the bound of `parse`, or never. -/
theorem parse_of_parseWithin (hfound : parseWithin grammar n parser = some found) :
    parser.parse grammar = some found :=
  parseWithin_bound _ (Nat.le_refl _) hfound

end Within

/-! ## Silent steps -/

/-- Silent steps lead from a parser to another. -/
inductive Silent (grammar : Grammar) : Parser → Parser → Prop where
  | refl (parser : Parser) : Silent grammar parser parser
  | step {parser next last : Parser} (hstep : parser.step grammar = (none, next))
    (hsilent : Silent grammar next last) : Silent grammar parser last

variable {last : Parser} {message : Message}

/-- `parse` finds the message behind any number of silent steps. -/
theorem parse_eq_some_iff :
    parser.parse grammar = some (message, next) ↔
      ∃ last, Silent grammar parser last ∧ last.step grammar = (some message, next) := by
  constructor
  · intro h
    rw [parse] at h
    generalize stepBound parser grammar = n at h
    induction n generalizing parser with
    | zero => cases h
    | succ n ih =>
      cases hstep : parser.step grammar with
      | mk first behind =>
        cases first with
        | none =>
          rw [parseWithin_silent hstep] at h
          obtain ⟨last, hsilent, hlast⟩ := ih h
          exact ⟨last, .step hstep hsilent, hlast⟩
        | some first =>
          rw [parseWithin_message hstep] at h
          cases h
          exact ⟨parser, .refl parser, hstep⟩
  · rintro ⟨last, hsilent, hlast⟩
    obtain ⟨n, hn⟩ : ∃ n, parseWithin grammar n parser = some (message, next) := by
      induction hsilent with
      | refl parser => exact ⟨1, parseWithin_message hlast⟩
      | step hstep _ ih =>
        obtain ⟨n, hn⟩ := ih hlast
        exact ⟨n + 1, by rw [parseWithin_silent hstep]; exact hn⟩
    exact parse_of_parseWithin hn

theorem parse_of_message (hstep : parser.step grammar = (some message, next)) :
    parser.parse grammar = some (message, next) :=
  parse_eq_some_iff.2 ⟨parser, .refl parser, hstep⟩

/-- A silent step does not change what `parse` finds. -/
theorem parse_of_silent (hstep : parser.step grammar = (none, next)) :
    parser.parse grammar = next.parse grammar := by
  apply Option.ext
  rintro ⟨message, behind⟩
  rw [parse_eq_some_iff, parse_eq_some_iff]
  constructor
  · rintro ⟨last, hsilent, hlast⟩
    cases hsilent with
    | refl =>
      rw [hstep] at hlast
      cases hlast
    | step hfirst hsilent =>
      rw [hstep] at hfirst
      cases hfirst
      exact ⟨last, hsilent, hlast⟩
  · rintro ⟨last, hsilent, hlast⟩
    exact ⟨last, .step hstep hsilent, hlast⟩

theorem Silent.parse_eq (hsilent : Silent grammar parser last) :
    parser.parse grammar = last.parse grammar := by
  induction hsilent with
  | refl => rfl
  | step hstep _ ih => rw [parse_of_silent hstep, ih]

/-! ## Up to the end of the parse -/

theorem drive_of_parse (limit : Nat) (done : List Message)
    (hparse : parser.parse grammar = some (message, next)) :
    drive grammar (limit + 1) done parser =
      if message.isFinal then some ((message :: done).reverse, next)
      else drive grammar limit (message :: done) next := by
  rw [drive, hparse]
  rfl

theorem parseTree_of_parse (limit : Nat)
    (hparse : parser.parse grammar = some (message, next)) :
    parseTree grammar (limit + 1) parser =
      if message.isFinal then some (next.answer grammar message)
      else parseTree grammar limit next := by
  rw [parseTree, hparse]
  rfl

/-- Takes steps up to the first final message, at most a number of them. -/
def runSteps (grammar : Grammar) : Nat → Parser → Option (Message × Parser)
  | 0, _ => none
  | n + 1, parser =>
    match parser.step grammar with
    | (none, next) => runSteps grammar n next
    | (some message, next) =>
      if message.isFinal then some (message, next) else runSteps grammar n next

/-- A step behind which a run goes on. -/
def GoesOn (message : Option Message) : Prop :=
  ∀ reported, message = some reported → reported.isFinal = false

section Ends

variable {n : Nat} {found : Message × Parser}

theorem runSteps_final (hstep : parser.step grammar = (some message, next))
    (hfinal : message.isFinal = true) :
    runSteps grammar (n + 1) parser = some (message, next) := by
  rw [runSteps, hstep]
  simp only [hfinal, if_true]

theorem runSteps_goesOn {first : Option Message} (hstep : parser.step grammar = (first, next))
    (hgoes : GoesOn first) : runSteps grammar (n + 1) parser = runSteps grammar n next := by
  rw [runSteps, hstep]
  cases first with
  | none => rfl
  | some message => simp only [hgoes message rfl, Bool.false_eq_true, if_false]

theorem goesOn_none : GoesOn none := nofun

/-- A step ends the run, or goes on. -/
theorem isFinal_or_goesOn (first : Option Message) :
    (∃ message, first = some message ∧ message.isFinal = true) ∨ GoesOn first := by
  cases first with
  | none => exact .inr goesOn_none
  | some message =>
    cases hfinal : message.isFinal with
    | true => exact .inl ⟨message, rfl, hfinal⟩
    | false =>
      right
      rintro _ ⟨⟩
      exact hfinal

theorem exists_runSteps_of_silent (hsilent : Silent grammar parser last)
    (h : ∃ n, runSteps grammar n last = some found) :
    ∃ n, runSteps grammar n parser = some found := by
  induction hsilent with
  | refl => exact h
  | step hstep _ ih =>
    obtain ⟨n, hn⟩ := ih h
    exact ⟨n + 1, by rw [runSteps_goesOn hstep goesOn_none]; exact hn⟩

/-- Behind the answer of `parseTree` there is a run up to a final message. -/
theorem exists_runSteps_of_parseTree {limit : Nat} {answer : Except ParseError Token × Parser}
    (h : parseTree grammar limit parser = some answer) :
    ∃ n message last, runSteps grammar n parser = some (message, last) ∧
      last.answer grammar message = answer := by
  induction limit generalizing parser with
  | zero => cases h
  | succ limit ih =>
    obtain ⟨⟨message, next⟩, hparse, h⟩ := Option.bind_eq_some_iff.1 h
    obtain ⟨last, hsilent, hlast⟩ := parse_eq_some_iff.1 hparse
    simp only at h
    split at h
    · next hfinal =>
      cases h
      obtain ⟨n, hn⟩ := exists_runSteps_of_silent hsilent ⟨1, runSteps_final hlast hfinal⟩
      exact ⟨n, message, next, hn, rfl⟩
    · next hfinal =>
      obtain ⟨n, final, behind, hn, hanswer⟩ := ih h
      have hgoes : GoesOn (some message) := by
        rintro _ ⟨⟩
        exact Bool.eq_false_iff.2 hfinal
      obtain ⟨n, hn⟩ := exists_runSteps_of_silent hsilent
        ⟨n + 1, by rw [runSteps_goesOn hlast hgoes]; exact hn⟩
      exact ⟨n, final, behind, hn, hanswer⟩

/-- A run up to a final message is what `parseTree` answers with, given enough messages. -/
theorem exists_parseTree_of_runSteps (h : runSteps grammar n parser = some (message, last)) :
    ∃ limit, parseTree grammar limit parser = some (last.answer grammar message) := by
  induction n generalizing parser with
  | zero => cases h
  | succ n ih =>
    cases hstep : parser.step grammar with
    | mk first next =>
      rcases isFinal_or_goesOn first with ⟨final, rfl, hfinal⟩ | hgoes
      · rw [runSteps_final hstep hfinal] at h
        cases h
        exact ⟨1, by rw [parseTree_of_parse 0 (parse_of_message hstep), if_pos hfinal]⟩
      · rw [runSteps_goesOn hstep hgoes] at h
        obtain ⟨limit, hlimit⟩ := ih h
        cases first with
        | none =>
          refine ⟨limit, ?_⟩
          cases limit with
          | zero => cases hlimit
          | succ limit =>
            rw [parseTree] at hlimit ⊢
            rw [parse_of_silent hstep]
            exact hlimit
        | some report =>
          have hmore : ¬report.isFinal = true := Bool.eq_false_iff.1 (hgoes report rfl)
          refine ⟨limit + 1, ?_⟩
          rw [parseTree_of_parse limit (parse_of_message hstep), if_neg hmore]
          exact hlimit

/-- A parser that parses to the end answers. -/
def Answers (grammar : Grammar) (parser : Parser) (result : Except ParseError Token) : Prop :=
  ∃ limit last, parseTree grammar limit parser = some (result, last)

/-- The answer of `parseTree` is the answer to the final message of a run. -/
theorem answers_iff {result : Except ParseError Token} :
    Answers grammar parser result ↔
      ∃ n message last, runSteps grammar n parser = some (message, last) ∧
        (last.answer grammar message).1 = result := by
  constructor
  · rintro ⟨limit, behind, h⟩
    obtain ⟨n, message, last, hrun, hanswer⟩ := exists_runSteps_of_parseTree h
    exact ⟨n, message, last, hrun, congrArg Prod.fst hanswer⟩
  · rintro ⟨n, message, last, hrun, rfl⟩
    obtain ⟨limit, h⟩ := exists_parseTree_of_runSteps hrun
    exact ⟨limit, _, h⟩

end Ends

end Parser

end GoldTables

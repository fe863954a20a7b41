import GoldTables.Proofs.BatchMachine
import GoldTables.Proofs.LoadedGrammars
import GoldTables.Proofs.ParseSoundness
import GoldTables.Proofs.Sessions

/-!
# Stacks are paths

The stack of a parser is a path through its automaton: every token was entered
from the state below over its own symbol, by the action that comes first in the
list of that state, and the parser is in the state on top. A consumer changes
what tokens carry, which nothing on this path looks at, and a token that is
renamed is entered anew from the state below it.

An internal error may take tokens from the stack and leave the state of the
parser behind. The path is back when an input is opened or dropped.

Results:
* `OnPath.step`: every step that reports no internal error keeps the path.
* `Spells.edge_of_getElem?`: what a path says of two tokens, one on the other.
* `session_path`: in every session the stack is a path, up to an internal error.
-/

namespace GoldTables.Parser

variable {grammar : Grammar} {parser next : Parser} {message : Option Message}
  {messages : List Message}

/-! ## Tokens on a path -/

section

variable {stack below : List Token} {top above under : Token} {symbols : List UInt16}
  {state : UInt16}

/-- A token was entered from the state of the one below it. -/
theorem Spells.edge_of_getElem? (h : Spells grammar stack symbols state) {i : Nat}
    (habove : stack[i]? = some above) (hunder : stack[i + 1]? = some under) :
    grammar.Edge under.state above.symbol above.state := by
  induction h generalizing i with
  | base => simp at hunder
  | @enter stack symbols state token h hedge ih =>
    cases i with
    | zero =>
      obtain rfl : token = above := by simpa using habove
      cases stack with
      | nil => simp at hunder
      | cons first below =>
        obtain rfl : first = under := by simpa using hunder
        rw [h.state_eq]
        exact hedge
    | succ i =>
      rw [List.getElem?_cons_succ] at habove hunder
      exact ih habove hunder

/-- The path begins on the token at the bottom. -/
theorem Spells.getLast? (h : Spells grammar stack symbols state) :
    stack.getLast? = some (bottom grammar) := by
  induction h with
  | base => rfl
  | enter _ _ ih => rw [List.getLast?_cons, ih]; rfl

/-- What the token on top carries does not matter, unless it is the one at the bottom. -/
theorem Spells.payload (h : Spells grammar (top :: below) symbols state)
    (htop : below ≠ [] ∨ top.payload.reduction?.isSome = true) (payload : Payload) :
    Spells grammar ({ top with payload } :: below) symbols state := by
  cases h with
  | base =>
    rcases htop with hne | hsome
    · exact absurd rfl hne
    · cases hsome
  | enter h hedge => exact @Spells.enter _ _ _ _ { top with payload } h hedge

end

/-! ## Steps -/

/-- The stack of the parser is a path to its state. -/
def OnPath (grammar : Grammar) (parser : Parser) : Prop :=
  ∃ symbols, Spells grammar parser.stack symbols parser.lrState

/-- The token of a production's head is entered from the exposed state. -/
theorem Spells.enter_goto {tokens below : List Token} {exposed : Token} {symbols : List UInt16}
    {state target : UInt16} (h : Spells grammar (tokens ++ exposed :: below) symbols state)
    (head : Token) (hgoto : grammar.goto? exposed.state head.symbol = some target) :
    ∃ symbols,
      Spells grammar ({ head with state := target } :: exposed :: below) symbols target := by
  obtain ⟨front, -, hfront⟩ := h.split
  exact ⟨_, @Spells.enter _ _ _ _ { head with state := target } hfront
    (.inr (Tables.goto?_eq_some.1 hgoto))⟩

/-- Every step that reports no internal error keeps the path. -/
theorem OnPath.step : Lasts grammar (OnPath grammar) := by
  intro parser message next h hstep hno
  obtain ⟨symbols, hspells⟩ := h
  cases hstep with
  | @shift lookahead rest target _ haction =>
    exact ⟨_, @Spells.enter _ _ _ _ { lookahead with state := target } hspells (.inl haction)⟩
  | @rename _ top exposed _ below _ _ production _ _ hstack hgoto =>
    have honly : parser.stack = [top] ++ exposed :: below := hstack
    rw [honly] at hspells
    exact hspells.enter_goto { top with symbol := production.head } hgoto
  | @reduction lookahead exposed _ children _ index _ production _ _ hstack _ hgoto =>
    rw [hstack] at hspells
    exact hspells.enter_goto
      ⟨production.head, .reduction index children, startOf children lookahead, 0⟩ hgoto
  | unknownSymbol => exact absurd rfl hno
  | strayGoto => exact absurd rfl hno
  | unknownProduction => exact absurd rfl hno
  | underflow => exact absurd rfl hno
  | renameLost => exact absurd rfl hno
  | reductionLost => exact absurd rfl hno
  | _ => exact ⟨symbols, hspells⟩

theorem Step.opened (h : Step grammar parser message next) : next.opened = parser.opened := by
  cases h <;> rfl

/-- A parser without an input stays as it is. -/
theorem Step.eq_of_closed (h : Step grammar parser message next) (hclosed : next.opened = false) :
    next = parser := by
  rw [h.opened] at hclosed
  have hstays : Step grammar parser (some .notLoaded) parser := .notLoaded hclosed
  exact (Prod.mk.inj (hstays.step_eq.symm.trans h.step_eq)).2.symm

/-! ## Sessions -/

theorem onPath_restart (parser : Parser) : OnPath grammar (parser.restart grammar) := ⟨[], .base⟩

theorem OnPath.payload {top : Token} {below : List Token} (h : OnPath grammar parser)
    (hstack : parser.stack = top :: below)
    (htop : below ≠ [] ∨ top.payload.reduction?.isSome = true) (payload : Payload) :
    OnPath grammar { parser with stack := { top with payload } :: below } := by
  obtain ⟨symbols, hspells⟩ := h
  rw [hstack] at hspells
  exact ⟨symbols, hspells.payload htop payload⟩

theorem OnPath.kept : Kept grammar (· ≠ .internalError) (OnPath grammar) where
  restart := onPath_restart
  openText parser _ := onPath_restart parser
  setTrim _ _ h := h
  step := OnPath.step.keeps
  input _ _ h := h
  payload _ _ _ payload h hstack htop := h.payload hstack htop payload

/-- Without an input there is a path whatever was reported before, since the stack was dropped
    with the input. -/
theorem OnPath.kept_closed :
    Kept grammar (fun _ => True) fun parser => parser.opened = false → OnPath grammar parser where
  restart parser _ := onPath_restart parser
  openText _ _ hclosed := nomatch hclosed
  setTrim _ _ h := h
  step parser message next h hstep _ hclosed := by
    obtain rfl := hstep.eq_of_closed hclosed
    exact h hclosed
  input _ _ h := h
  payload _ _ _ payload h hstack htop hclosed := (h hclosed).payload hstack htop payload

/-- In every session, on a grammar from a file or from JSON, the parser is in the state of the token
    on top of its stack, the token at the bottom carries the initial state, and every token was
    entered from the one below by the first action on its symbol there. There must not have been an
    internal error since an input was opened or dropped; `parseTree` drops an input, too, and
    leaves a parser that is not open. -/
theorem session_path
    (h : (∃ bytes, Grammar.ofBytes bytes = .ok grammar) ∨
      ∃ document, Grammar.ofDocument document = .ok grammar)
    (hsession : Session grammar messages parser)
    (hno : parser.opened = true → .internalError ∉ messages) :
    (∃ top, parser.stack.head? = some top ∧ top.state = parser.lrState) ∧
      (∃ lowest, parser.stack.getLast? = some lowest ∧ lowest.state = grammar.lrInitial) ∧
      ∀ i above below, parser.stack[i]? = some above → parser.stack[i + 1]? = some below →
        Batch.firstAction? grammar below.state above.symbol = some (.shift above.state) ∨
          Batch.firstAction? grammar below.state above.symbol = some (.goto above.state) := by
  have hlinked := Grammar.linked_of_load h
  have hpath : OnPath grammar parser := by
    cases hopened : parser.opened with
    | false => exact hsession.invariant OnPath.kept_closed (fun _ _ => trivial) hopened
    | true =>
      refine hsession.invariant OnPath.kept ?_
      rintro message hmem rfl
      exact hno hopened hmem
  obtain ⟨symbols, hspells⟩ := hpath
  refine ⟨?_, ⟨_, hspells.getLast?, rfl⟩, fun i above below habove hbelow => ?_⟩
  · cases hstack : parser.stack with
    | nil =>
      rw [hstack] at hspells
      cases hspells
    | cons top below =>
      rw [hstack] at hspells
      exact ⟨top, rfl, hspells.state_eq⟩
  · rw [hlinked.firstAction?_eq]
    exact hspells.edge_of_getElem? habove hbelow

/-- With a value in place of the reduction on top, and trimming turned on in the middle. -/
theorem session_path_sampleFile :
    ∃ grammar messages parser top below, Grammar.ofBytes sampleFile = .ok grammar ∧
      Session grammar messages parser ∧ (parser.opened = true → .internalError ∉ messages) ∧
      parser.stack = [top, below] ∧ top.payload = .value .null ∧ top.state = parser.lrState ∧
      below.state = grammar.lrInitial ∧
      (Batch.firstAction? grammar below.state top.symbol = some (.shift top.state) ∨
        Batch.firstAction? grammar below.state top.symbol = some (.goto top.state)) := by
  have hpasses : Grammar.passes sampleFile (fun grammar =>
      (calls grammar 5 ((start grammar).openText grammar " a ")).any fun run =>
        !run.1.contains .internalError && run.2.stack.length = 2) = true := by decide +kernel
  obtain ⟨grammar, hgrammar, htest⟩ := Grammar.exists_of_passes hpasses
  simp only [Bool.and_eq_true, Bool.not_eq_true', Option.any_eq_true, decide_eq_true_eq] at htest
  obtain ⟨⟨messages, current⟩, hrun, hmessages, hlength⟩ := htest
  obtain ⟨root, lowest, hstack⟩ : ∃ root lowest, current.stack = [root, lowest] :=
    List.length_eq_two.1 hlength
  have hsession : Session grammar messages ((current.setTrim true).setCurrentValue .null).2 :=
    (((Session.start.openText " a ").calls (calls_iff.2 ⟨5, hrun⟩)).setTrim true).setValue .null
  have hvalue : ((current.setTrim true).setCurrentValue .null).2.stack =
      [{ root with payload := .value .null }, lowest] := by
    simp [setCurrentValue, setTrim, hstack]
  have hno : .internalError ∉ messages := by simpa using hmessages
  obtain ⟨⟨top, htop, hstate⟩, ⟨bottom, hbottom, hinitial⟩, hedges⟩ :=
    session_path (.inl ⟨_, hgrammar⟩) hsession fun _ => hno
  have hedge := hedges 0 _ _ (by rw [hvalue]; rfl) (by rw [hvalue]; rfl)
  rw [hvalue] at htop hbottom
  cases htop
  cases hbottom
  exact ⟨grammar, messages, _, _, _, hgrammar, hsession, fun _ => hno, hvalue, rfl, hstate,
    hinitial, hedge⟩

end GoldTables.Parser

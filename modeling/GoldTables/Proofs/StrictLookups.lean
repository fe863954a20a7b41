import GoldTables.Proofs.LoadedGrammars
import GoldTables.Proofs.ParserSteps

/-!
# Evaluation that stops at a wrong index

Where the lexer and the parser go by an index from one table into another,
they treat a row that is not there like a rule that does not apply. Here the
same steps are evaluated strictly: every row whose index is followed must be
there, also one that is only looked at for a report, and `none` means that an
index lies outside of its table.

Results:
* `Lexer.strictStepsWithin_eq`: no step through the groups follows a wrong index, however many are
  taken.
* `Grammar.Linked.strictAction_eq`: the place of an action is one in the table.
-/

namespace GoldTables

/-! ## Automaton -/

/-- The state that an automaton state goes to on a character. -/
def Tables.strictNextState (tables : Tables) (state : UInt16) (c : Char) :
    Option (Option UInt16) := do
  let row ← tables.dfaStates[state.toNat]?
  let edge? ← row.edges.findM? fun edge =>
    (tables.characterSets[edge.set.toNat]?).map fun set => set.contains c
  return edge?.map DfaEdge.target

/-- The symbol that an automaton state accepts. -/
def Tables.strictAccepted (tables : Tables) (state : UInt16) : Option (Option UInt16) :=
  (tables.dfaStates[state.toNat]?).map DfaState.accept

/-- Runs the automaton as `scan` does. -/
def strictScan (tables : Tables) (state : UInt16) (taken : Nat) (best : Option (UInt16 × Nat)) :
    List Char → Option (Option (UInt16 × Nat) × Nat)
  | [] => some (best, taken)
  | c :: rest => do
    match ← tables.strictNextState state c with
    | none => return (best, taken + 1)
    | some target =>
      let best :=
        match ← tables.strictAccepted target with
        | some symbol => some (symbol, taken + 1)
        | none => best
      strictScan tables target (taken + 1) best rest

/-- The token at the start of a text. The symbol for unmatched text is looked up in any case. -/
def Grammar.strictRecognize (grammar : Grammar) : List Char → Option (Stretch × Nat)
  | [] => do
    let _ ← grammar.symbol? grammar.endSymbol
    return (⟨grammar.endSymbol, []⟩, 0)
  | c :: rest => do
    let found ← strictScan grammar.toTables grammar.dfaInitial 0 none (c :: rest)
    let _ ← grammar.symbol? grammar.errorSymbol
    match found with
    | (some (symbol, length), looked) => return (⟨symbol, (c :: rest).take length⟩, looked)
    | (none, looked) => return (⟨grammar.errorSymbol, [c]⟩, looked)

/-! ## Groups -/

namespace Lexer

/-- The next stretch of text, and the lexer that has looked at it. -/
def strictPeek (lexer : Lexer) (grammar : Grammar) : Option (Stretch × Lexer) := do
  let (stretch, looked) ← grammar.strictRecognize lexer.rest
  return (stretch, lexer.draw looked)

/-- The group that a symbol may open. -/
def strictOpens (lexer : Lexer) (grammar : Grammar) (symbol : Symbol) :
    Option (Option UInt16) :=
  match symbol.kind, symbol.group with
  | .groupStart, some group =>
    match lexer.groups with
    | [] => some (some group)
    | top :: _ =>
      (grammar.group? top.group).map fun around =>
        if around.nesting.contains group then some group else none
  | _, _ => some none

/-- Handles the next stretch of text. The name of a group that is opened is reported. -/
def strictGroupStep (lexer : Lexer) (grammar : Grammar) : Option GroupStep := do
  let (stretch, lexer) ← lexer.strictPeek grammar
  let symbol ← grammar.symbol? stretch.symbol
  let opens? ← lexer.strictOpens grammar symbol
  match opens? with
  | some group =>
    let _ ← grammar.group? group
    return .again (lexer.openGroup group stretch)
  | none =>
    match lexer.groups with
    | [] => return .token (lexer.tokenOf stretch) (lexer.consume stretch.text.length)
    | top :: outer =>
      let group ← grammar.group? top.group
      if stretch.symbol = group.finish then return lexer.closeGroup group stretch top outer
      else if symbol.kind = .endOfInput then
        return .token (lexer.tokenOf stretch) lexer
      else return .again (lexer.gather group.advance stretch top outer)

/-- Takes steps up to the next token, at most a number of them. -/
def strictStepsWithin (grammar : Grammar) : Nat → Lexer → Option GroupStep
  | 0, lexer => some (.again lexer)
  | n + 1, lexer => do
    match ← lexer.strictGroupStep grammar with
    | .token token next => return .token token next
    | .again next => strictStepsWithin grammar n next

/-- The next token, or `some none` if there never is one. -/
def strictNextToken (lexer : Lexer) (grammar : Grammar) : Option (Option (Token × Lexer)) :=
  (strictStepsWithin grammar lexer.stepBound lexer).map GroupStep.token?

end Lexer

/-! ## Actions -/

namespace Tables

/-- The action in effect in a state on a symbol, found by its place in the table. -/
def strictAction (tables : Tables) (state symbol : UInt16) : Option (Option Action) := do
  let row ← tables.lrState? state
  match row.places[symbol]? with
  | none => return none
  | some place => return some (← row.actions[place]?).action

/-- The symbols to report as expected in a state. -/
def strictExpectable (tables : Tables) (state : UInt16) : Option (List UInt16) := do
  let row ← tables.lrState? state
  let _ ← row.actions.toList.mapM fun action => tables.kind? action.symbol
  return tables.expectable state

/-- Whether a production only renames one nonterminal. -/
def strictIsChain (tables : Tables) (production : Production) : Option Bool :=
  match production.body with
  | [only] => (tables.kind? only).map fun kind => kind = .nonterminal
  | _ => some false

end Tables

namespace Parser

/-- Puts the token of a production's head on the stack `below`. The symbols of the production are
    reported. -/
def strictEnter (parser : Parser) (grammar : Grammar) (production : Production) (head : Token)
    (below : List Token) (message : Option Message) : Option (Option Message × Parser) :=
  match below with
  | [] => some (some .internalError, { parser with stack := below })
  | exposed :: _ => do
    match ← grammar.strictAction exposed.state head.symbol with
    | some (.goto target) =>
      let _ ← (production.head :: production.body).mapM grammar.symbol?
      return (message,
        { parser with lrState := target, stack := { head with state := target } :: below })
    | _ => return (some .internalError, { parser with stack := below })

/-- Whether the parser leaves out a production. Only then it looks if this is a chain production. -/
def strictRenames (parser : Parser) (grammar : Grammar) (production : Production) : Option Bool :=
  if parser.trim then grammar.strictIsChain production else some false

/-- Applies a production. -/
def strictReduce (parser : Parser) (grammar : Grammar) (production : Production) (index : UInt16)
    (lookahead : Token) : Option (Option Message × Parser) :=
  let size := production.body.length
  match parser.stack, parser.stack.drop size with
  | top :: rest, exposed :: below => do
    if ← parser.strictRenames grammar production then
      parser.strictEnter grammar production { top with symbol := production.head } rest none
    else
      let children := (parser.stack.take size).reverse
      let position := (children.head?.map Token.position).getD lookahead.position
      parser.strictEnter grammar production
        ⟨production.head, .reduction index children, position, 0⟩ (exposed :: below)
        (some .reduction)
  | _, _ => some (some .internalError, parser)

/-- Handles a lookahead that is not noise as the table says. -/
def strictAct (parser : Parser) (grammar : Grammar) (lookahead : Token) (rest : List Token) :
    Option (Option Message × Parser) := do
  match ← grammar.strictAction parser.lrState lookahead.symbol with
  | none | some .error =>
    let expected ← grammar.strictExpectable parser.lrState
    return (some .syntaxError, { parser with expected })
  | some .accept => return (some .accept, parser)
  | some (.shift target) =>
    return (none,
      { parser with
        input := rest
        lrState := target
        stack := { lookahead with state := target } :: parser.stack })
  | some (.reduce index) =>
    let production ← grammar.production? index
    parser.strictReduce grammar production index lookahead
  | some (.goto _) => return (some .internalError, parser)

/-- One step. A lookahead may have any symbol, and whether it exists is asked first. -/
def strictStep (parser : Parser) (grammar : Grammar) : Option (Option Message × Parser) :=
  if !parser.opened then some (some .notLoaded, parser)
  else
    match parser.input with
    | [] =>
      (parser.lexer.strictNextToken grammar).map fun
        | some (token, lexer) => (some .tokenRead, { parser with lexer, input := [token] })
        | none => (none, parser)
    | lookahead :: rest =>
      let parser := { parser with position := lookahead.position }
      if parser.lexer.inGroup then some (some .groupError, parser)
      else
        match grammar.kind? lookahead.symbol with
        | none => some (some .internalError, parser)
        | some .noise => some (none, { parser with input := rest })
        | some .error => some (some .lexicalError, parser)
        | some _ => parser.strictAct grammar lookahead rest

/-- Takes steps up to the next message, at most a number of them; `some none` if they do not
    suffice. -/
def strictParseWithin (grammar : Grammar) : Nat → Parser → Option (Option (Message × Parser))
  | 0, _ => some none
  | n + 1, parser => do
    match ← parser.strictStep grammar with
    | (some message, next) => return some (message, next)
    | (none, next) => strictParseWithin grammar n next

end Parser

/-! ## The automaton follows no wrong index -/

theorem exists_mapM_eq_some {α β : Type} {f : α → Option β} {items : List α}
    (h : ∀ item ∈ items, ∃ row, f item = some row) : ∃ rows, items.mapM f = some rows := by
  induction items with
  | nil => exact ⟨[], rfl⟩
  | cons item items ih =>
    rw [List.forall_mem_cons] at h
    obtain ⟨⟨row, hrow⟩, hitems⟩ := h
    obtain ⟨rows, hrows⟩ := ih hitems
    exact ⟨row :: rows, by simp [hrow, hrows]⟩

namespace Tables

variable {tables : Tables} {state : UInt16}

theorem strictNextState_eq (h : tables.InRange) (hstate : state.toNat < tables.dfaStates.size)
    (c : Char) : tables.strictNextState state c = some (tables.nextState? state c) := by
  have hedges := (h.dfaStates _ (Array.getElem_mem hstate)).edges
  unfold strictNextState nextState?
  rw [Array.getElem?_eq_getElem hstate]
  simp only [Option.bind_eq_bind, Option.bind_some]
  generalize tables.dfaStates[state.toNat].edges = edges at hedges ⊢
  induction edges with
  | nil => rfl
  | cons edge edges ih =>
    rw [List.forall_mem_cons] at hedges
    rw [List.findM?, List.find?_cons, Array.getElem?_eq_getElem hedges.1.1]
    simp only [Option.map_some, Option.bind_eq_bind, Option.bind_some]
    cases tables.characterSets[edge.set.toNat].contains c with
    | true => rfl
    | false => exact ih hedges.2

theorem toNat_lt_of_nextState? (h : tables.InRange) {c : Char} {target : UInt16}
    (hnext : tables.nextState? state c = some target) :
    target.toNat < tables.dfaStates.size := by
  obtain ⟨row, hrow, hnext⟩ := Option.bind_eq_some_iff.1 hnext
  obtain ⟨edge, hedge, hnext⟩ := Option.bind_eq_some_iff.1 hnext
  cases hnext
  exact ((h.dfaStates row (Array.mem_of_getElem? hrow)).edges edge
    (List.mem_of_find?_eq_some hedge)).2

theorem strictAccepted_eq (hstate : state.toNat < tables.dfaStates.size) :
    tables.strictAccepted state = some (tables.accepted? state) := by
  rw [strictAccepted, accepted?, Array.getElem?_eq_getElem hstate]
  rfl

/-- The automaton goes on in states that exist. -/
theorem strictScan_eq (h : tables.InRange) (text : List Char)
    (hstate : state.toNat < tables.dfaStates.size) (taken : Nat) (best : Option (UInt16 × Nat)) :
    strictScan tables state taken best text = some (scan tables state taken best text) := by
  induction text generalizing state taken best with
  | nil => rfl
  | cons c rest ih =>
    rw [strictScan, scan, strictNextState_eq h hstate, Option.bind_eq_bind, Option.bind_some]
    cases hnext : tables.nextState? state c with
    | none => rfl
    | some target =>
      have htarget := toNat_lt_of_nextState? h hnext
      simp only [strictAccepted_eq htarget, Option.bind_some]
      exact ih htarget _ _

end Tables

theorem Tables.exists_symbol {tables : Tables} {symbol : UInt16}
    (h : symbol.toNat < tables.symbols.size) : ∃ row, tables.symbol? symbol = some row :=
  ⟨_, Array.getElem?_eq_getElem h⟩

theorem Grammar.Linked.strictRecognize_eq {grammar : Grammar} (h : grammar.Linked)
    (text : List Char) : grammar.strictRecognize text = some (grammar.recognize text) := by
  cases text with
  | nil =>
    obtain ⟨row, hrow⟩ := Tables.exists_symbol h.endSymbol
    rw [strictRecognize, hrow]
    rfl
  | cons c rest =>
    obtain ⟨row, hrow⟩ := Tables.exists_symbol h.errorSymbol
    rw [strictRecognize, recognize, Tables.strictScan_eq h.inRange _ h.inRange.dfaInitial]
    simp only [Option.bind_eq_bind, Option.bind_some, hrow]
    rcases scan grammar.toTables grammar.dfaInitial 0 none (c :: rest) with ⟨_ | best, looked⟩
    · rfl
    · rfl

/-! ## The lexer follows no wrong index -/

namespace Lexer

open Grammar.Loaded

variable {grammar : Grammar} {lexer : Lexer}

theorem strictOpens_eq (hgroups : GroupsExist grammar lexer) {symbol : UInt16} {row : Symbol}
    (hrow : grammar.symbol? symbol = some row) :
    lexer.strictOpens grammar row = some (lexer.opens? grammar symbol) := by
  obtain ⟨index, name, kind, known⟩ := row
  unfold strictOpens opens?
  rw [hrow]
  cases kind <;> cases known <;> try rfl
  cases hopen : lexer.groups with
  | nil => rfl
  | cons top outer =>
    have hlt := hgroups top (by rw [hopen]; exact List.mem_cons_self)
    simp only [Tables.group?, Array.getElem?_eq_getElem hlt, Option.map_some, Option.any_some]

theorem strictPeek_eq (h : grammar.Linked) :
    lexer.strictPeek grammar = some (lexer.peek grammar) := by
  rw [strictPeek, h.strictRecognize_eq]
  rfl

theorem exists_group_of_mem (hgroups : GroupsExist grammar lexer) {opened : OpenGroup}
    (hopened : opened ∈ lexer.groups) : ∃ group, grammar.group? opened.group = some group :=
  ⟨_, Array.getElem?_eq_getElem (hgroups opened hopened)⟩

theorem strictGroupStep_eq (h : grammar.Linked) (hgroups : GroupsExist grammar lexer) :
    lexer.strictGroupStep grammar = some (lexer.groupStep grammar) := by
  obtain ⟨row, hrow⟩ := Tables.exists_symbol (h.toNat_lt_recognize lexer.rest)
  have hlooked : GroupsExist grammar (lexer.peek grammar).2 := hgroups
  rw [strictGroupStep, groupStep, strictPeek_eq h]
  rw [show (grammar.recognize lexer.rest).1 = (lexer.peek grammar).1 from rfl] at hrow
  generalize lexer.peek grammar = peeked at hrow hlooked ⊢
  obtain ⟨stretch, looked⟩ := peeked
  have hkind : grammar.kind? stretch.symbol = some row.kind := by
    rw [Tables.kind?, hrow]
    rfl
  simp only [Option.bind_eq_bind, Option.bind_some, hrow, strictOpens_eq hlooked hrow]
  cases hopens : looked.opens? grammar stretch.symbol with
  | some group =>
    obtain ⟨known, hknown⟩ : ∃ known, grammar.group? group = some known :=
      ⟨_, Array.getElem?_eq_getElem (h.toNat_lt_of_opens? hopens)⟩
    simp only [hknown, Option.bind_some]
    rfl
  | none =>
    cases hopen : looked.groups with
    | nil => rfl
    | cons top outer =>
      obtain ⟨group, hgroup⟩ :=
        exists_group_of_mem hlooked (by rw [hopen]; exact List.mem_cons_self)
      simp only [hgroup, Option.bind_some, hkind, Option.some.injEq]
      split
      · rfl
      · split <;> rfl

/-- On its way to the next token the lexer follows no wrong index, also where it never comes to
    one. -/
theorem strictStepsWithin_eq (h : grammar.Linked) (hgroups : GroupsExist grammar lexer) (n : Nat) :
    strictStepsWithin grammar n lexer = some (stepsWithin grammar n lexer) := by
  induction n generalizing lexer with
  | zero => rfl
  | succ n ih =>
    rw [strictStepsWithin, stepsWithin, strictGroupStep_eq h hgroups, Option.bind_eq_bind,
      Option.bind_some]
    cases hstep : lexer.groupStep grammar with
    | token token next => rfl
    | again next =>
      have hnext := h.groupsExist_step (step_groupStep grammar lexer) hgroups
      rw [hstep] at hnext
      exact ih hnext

theorem strictNextToken_eq (h : grammar.Linked) (hgroups : GroupsExist grammar lexer) :
    lexer.strictNextToken grammar = some (lexer.nextToken? grammar) := by
  rw [strictNextToken, strictStepsWithin_eq h hgroups]
  rfl

end Lexer

/-! ## The parser follows no wrong index -/

namespace Tables

variable {tables : Tables} {state : UInt16}

/-- What an action in effect refers to exists. -/
theorem InRange.of_action? (h : tables.InRange) {symbol : UInt16} {action : Action}
    (haction : tables.action? state symbol = some action) : tables.ActionInRange action := by
  obtain ⟨row, hrow, haction⟩ := Option.bind_eq_some_iff.1 haction
  obtain ⟨place, -, haction⟩ := Option.bind_eq_some_iff.1 haction
  obtain ⟨entry, hentry, haction⟩ := Option.bind_eq_some_iff.1 haction
  cases haction
  exact (h.lrStates row (Array.mem_of_getElem? hrow) entry (Array.mem_of_getElem? hentry)).2

end Tables

namespace Grammar.Linked

variable {grammar : Grammar} {state : UInt16}

/-- The places of actions are places in the table. -/
theorem strictAction_eq (h : grammar.Linked) (hstate : state.toNat < grammar.lrStates.size)
    (symbol : UInt16) :
    grammar.strictAction state symbol = some (grammar.action? state symbol) := by
  have hrow : grammar.lrState? state = some grammar.lrStates[state.toNat] :=
    Array.getElem?_eq_getElem hstate
  have hfinds := (h.indexed _ (Array.getElem_mem hstate)).findsFirst symbol
  rw [Tables.strictAction, Tables.action?, hrow, Option.bind_eq_bind, Option.bind_some,
    Option.bind_some, LrState.action?]
  cases hplace : grammar.lrStates[state.toNat].places[symbol]? with
  | none => rfl
  | some place =>
    rw [hplace] at hfinds
    obtain ⟨hlt, -⟩ := List.findIdx?_eq_some_iff_getElem.1 hfinds.symm
    rw [Array.length_toList] at hlt
    simp only [Option.bind_eq_bind, Option.bind_some, Array.getElem?_eq_getElem hlt]
    rfl

theorem strictExpectable_eq (h : grammar.Linked) (hstate : state.toNat < grammar.lrStates.size) :
    grammar.strictExpectable state = some (grammar.expectable state) := by
  have hrow : grammar.lrState? state = some grammar.lrStates[state.toNat] :=
    Array.getElem?_eq_getElem hstate
  obtain ⟨kinds, hkinds⟩ : ∃ kinds, grammar.lrStates[state.toNat].actions.toList.mapM
      (fun action => grammar.kind? action.symbol) = some kinds := by
    apply exists_mapM_eq_some
    intro entry hentry
    exact Tables.exists_kind
      (h.inRange.lrStates _ (Array.getElem_mem hstate) entry (Array.mem_toList_iff.1 hentry)).1
  rw [Tables.strictExpectable, hrow, Option.bind_eq_bind, Option.bind_some, hkinds]
  rfl

theorem strictIsChain_eq {production : Production}
    (hbody : ∀ symbol ∈ production.body, symbol.toNat < grammar.symbols.size) :
    grammar.strictIsChain production = some (grammar.isChain production) := by
  rw [Tables.strictIsChain, Tables.isChain]
  rcases heq : production.body with _ | ⟨only, _ | _⟩
  · rfl
  · obtain ⟨kind, hkind⟩ := Tables.exists_kind (hbody only (by rw [heq]; exact List.mem_cons_self))
    simp [hkind]
  · rfl

end Grammar.Linked

end GoldTables

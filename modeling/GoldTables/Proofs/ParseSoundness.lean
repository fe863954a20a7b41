import GoldTables.Proofs.ConsistentTables
import GoldTables.Proofs.DerivationTrees
import GoldTables.Proofs.ParsedTokens

/-!
# Accepted inputs are sentences

The stack of a parser spells a walk along the edges of its tables. With
consistent tables a production therefore finds its body on top of the stack,
and builds a derivation tree. An internal error may lose the tokens of a body
and leave the parser in a state that does not belong to its stack, so all of
this holds up to the first one.

Results:
* `Sound.step`: the stack spells a walk, and holds derivation trees.
* `accept_sound`: an accepted input has a derivation tree, and the first internal error of a
  parse is no stack underflow.
* `accept_unsound_lostFile`: behind an internal error an accepted input may have none.
-/

namespace GoldTables

namespace Parser

variable {grammar : Grammar} {parser next current : Parser} {trim : Bool}

/-! ## The stack spells a walk -/

/-- The tokens of a stack were each entered from the one below over its symbol. -/
inductive Spells (grammar : Grammar) : List Token → List UInt16 → UInt16 → Prop where
  | base : Spells grammar [bottom grammar] [] grammar.lrInitial
  | enter {stack : List Token} {symbols : List UInt16} {state : UInt16} {token : Token}
    (h : Spells grammar stack symbols state)
    (hedge : grammar.Edge state token.symbol token.state) :
    Spells grammar (token :: stack) (symbols ++ [token.symbol]) token.state

section

variable {stack tokens below : List Token} {exposed : Token} {symbols : List UInt16}
  {state : UInt16}

theorem Spells.path (h : Spells grammar stack symbols state) : grammar.Path symbols state := by
  induction h with
  | base => exact .start
  | enter _ hedge ih => exact ih.edge hedge

theorem Spells.length (h : Spells grammar stack symbols state) :
    stack.length = symbols.length + 1 := by
  induction h with
  | base => rfl
  | enter _ _ ih => rw [List.length_cons, ih, List.length_append, List.length_singleton]

/-- The state of the token on top is the state that the walk leads to. -/
theorem Spells.state_eq (h : Spells grammar (exposed :: below) symbols state) :
    exposed.state = state := by
  cases h with
  | base => rfl
  | enter => rfl

/-- A walk starts on the token at the bottom. -/
theorem Spells.eq_bottom (h : Spells grammar [exposed] symbols state) :
    exposed = bottom grammar := by
  cases h with
  | base => rfl
  | enter h => cases h

/-- The tokens on top spell the end of the walk. -/
theorem Spells.split (h : Spells grammar (tokens ++ exposed :: below) symbols state) :
    ∃ front, symbols = front ++ (tokens.map Token.symbol).reverse ∧
      Spells grammar (exposed :: below) front exposed.state := by
  induction tokens generalizing symbols state with
  | nil =>
    refine ⟨symbols, by simp, ?_⟩
    rw [h.state_eq]
    exact h
  | cons token tokens ih =>
    generalize hstack : token :: tokens ++ exposed :: below = stack at h
    cases h with
    | base =>
      have hlength := congrArg List.length hstack
      simp only [List.cons_append, List.length_cons, List.length_append, List.length_nil] at hlength
      omega
    | enter h =>
      obtain ⟨rfl, rfl⟩ := List.cons.inj hstack
      obtain ⟨front, rfl, hfront⟩ := ih h
      exact ⟨front, by simp, hfront⟩

/-- A single token on the stack lies over the one at the bottom. -/
theorem Spells.exists_root (h : Spells grammar parser.stack symbols state)
    (hdepth : parser.stackDepth = 1) : ∃ root, parser.stack = [root, bottom grammar] := by
  have hlength : parser.stack.length = 2 := by
    rw [stackDepth] at hdepth
    omega
  obtain ⟨root, lowest, hstack⟩ := List.length_eq_two.1 hlength
  rw [hstack] at h
  have hsplit : Spells grammar ([root] ++ [lowest]) symbols state := h
  obtain ⟨front, -, hlowest⟩ := hsplit.split
  rw [hlowest.eq_bottom] at hstack
  exact ⟨root, hstack⟩

end

/-! ## Sound parsers -/

/-- The stack of the parser spells a walk to its state, and holds derivation trees; the tokens
    that wait are leaves. -/
structure Sound (grammar : Grammar) (trim : Bool) (parser : Parser) : Prop where
  trims : parser.trim = trim
  spells : ∃ symbols, Spells grammar parser.stack symbols parser.lrState
  fits : ∀ token ∈ parser.stack, token.Fits grammar.toTables trim
  input : ∀ token ∈ parser.input, token.isLeaf = true

/-- A production is to be applied to fewer tokens than its body has symbols. -/
def Underflows (grammar : Grammar) (parser : Parser) : Prop :=
  ∃ lookahead rest index production, Reduces grammar parser lookahead rest index production ∧
    parser.stack.length ≤ production.body.length

section

variable {lookahead exposed : Token} {rest children below : List Token} {index : UInt16}
  {production : Production}

/-- The walk ends in the body of the production to apply. -/
theorem Sound.body_suffix (hconsistent : grammar.Consistent) (h : Sound grammar trim parser)
    (hreduces : Reduces grammar parser lookahead rest index production) :
    ∃ symbols, Spells grammar parser.stack symbols parser.lrState ∧
      production.body <:+ symbols := by
  obtain ⟨symbols, hspells⟩ := h.spells
  exact ⟨symbols, hspells,
    hconsistent symbols _ hspells.path _ _ _ hreduces.action hreduces.production⟩

/-- There are always enough tokens. -/
theorem Sound.not_underflows (hconsistent : grammar.Consistent) (h : Sound grammar trim parser) :
    ¬ Underflows grammar parser := by
  rintro ⟨lookahead, rest, index, production, hreduces, hle⟩
  obtain ⟨symbols, hspells, hsuffix⟩ := h.body_suffix hconsistent hreduces
  have hlength := hspells.length
  have hbody := hsuffix.length_le
  omega

/-- The tokens to reduce have the symbols of the body. -/
theorem Sound.children_eq (hconsistent : grammar.Consistent) (h : Sound grammar trim parser)
    (hreduces : Reduces grammar parser lookahead rest index production)
    (hstack : parser.stack = children.reverse ++ exposed :: below)
    (hlength : children.length = production.body.length) :
    children.map Token.symbol = production.body ∧
      ∃ front, Spells grammar (exposed :: below) front exposed.state := by
  obtain ⟨symbols, hspells, hsuffix⟩ := h.body_suffix hconsistent hreduces
  rw [hstack] at hspells
  obtain ⟨front, rfl, hfront⟩ := hspells.split
  rw [List.map_reverse, List.reverse_reverse] at hsuffix
  refine ⟨?_, front, hfront⟩
  have hchildren : children.map Token.symbol <:+ front ++ children.map Token.symbol :=
    List.suffix_append _ _
  have hsame : production.body.length = (children.map Token.symbol).length := by
    rw [List.length_map, hlength]
  exact ((List.suffix_of_suffix_length_le hsuffix hchildren hsame.le).eq_of_length hsame).symm

end

/-- Every step that reports no internal error leaves a sound parser sound. -/
theorem Sound.step (hconsistent : grammar.Consistent) : Lasts grammar (Sound grammar trim) := by
  intro parser message next h hstep hno
  cases hstep with
  | notLoaded => exact h
  | tokenRead =>
    refine ⟨h.trims, h.spells, h.fits, fun token htoken => ?_⟩
    obtain ⟨text, htext⟩ := Lexer.nextToken_text parser.lexer grammar
    rw [List.mem_singleton.1 htoken, Token.isLeaf, htext]
    rfl
  | stuck => exact h
  | groupError => exact ⟨h.trims, h.spells, h.fits, h.input⟩
  | unknownSymbol => exact absurd rfl hno
  | noise hopened hinput =>
    refine ⟨h.trims, h.spells, h.fits, fun token htoken => h.input token ?_⟩
    rw [hinput]
    exact List.mem_cons_of_mem _ htoken
  | lexicalError => exact ⟨h.trims, h.spells, h.fits, h.input⟩
  | syntaxError => exact ⟨h.trims, h.spells, h.fits, h.input⟩
  | accept => exact ⟨h.trims, h.spells, h.fits, h.input⟩
  | @shift lookahead rest target hhandles haction =>
    obtain ⟨symbols, hspells⟩ := h.spells
    have hinput := h.input
    rw [hhandles.input] at hinput
    refine ⟨h.trims, ⟨_, hspells.enter (.inl haction)⟩, ?_, ?_⟩
    · intro token htoken
      rcases List.mem_cons.1 htoken with rfl | htoken
      · have hleaf : Token.isLeaf { lookahead with state := target } = true :=
          hinput lookahead List.mem_cons_self
        exact Token.fits_of_isLeaf hleaf trim
      · exact h.fits token htoken
    · exact fun token htoken => hinput token (List.mem_cons_of_mem _ htoken)
  | strayGoto => exact absurd rfl hno
  | unknownProduction => exact absurd rfl hno
  | underflow => exact absurd rfl hno
  | @rename lookahead top exposed rest below index target production hreduces htrim hstack hgoto =>
    obtain ⟨hrenames, hchain⟩ := Bool.and_eq_true_iff.1 htrim
    rw [h.trims] at hrenames
    subst hrenames
    have honly : parser.stack = [top].reverse ++ exposed :: below := hstack
    obtain ⟨-, front, hfront⟩ := h.children_eq hconsistent hreduces honly
      (Tables.length_body_of_isChain hchain).symm
    have hfits := h.fits
    rw [hstack] at hfits
    refine ⟨h.trims, ⟨_, hfront.enter (.inr (Tables.goto?_eq_some.1 hgoto))⟩, ?_, h.input⟩
    intro token htoken
    rcases List.mem_cons.1 htoken with rfl | htoken
    · exact (hfits top List.mem_cons_self).rename production.head target
    · exact hfits token (List.mem_cons_of_mem _ htoken)
  | renameLost => exact absurd rfl hno
  | @reduction lookahead exposed rest children below index target production hreduces htrim hstack
      hlength hgoto =>
    obtain ⟨hbody, front, hfront⟩ := h.children_eq hconsistent hreduces hstack hlength
    have hfits := h.fits
    rw [hstack] at hfits
    refine ⟨h.trims, ⟨_, hfront.enter (.inr (Tables.goto?_eq_some.1 hgoto))⟩, ?_, h.input⟩
    intro token htoken
    rcases List.mem_cons.1 htoken with rfl | htoken
    · refine Token.fits_reduction hreduces.production hbody fun child hchild => ?_
      exact hfits child (List.mem_append_left _ (List.mem_reverse.2 hchild))
    · exact hfits token (List.mem_append_right _ htoken)
  | reductionLost => exact absurd rfl hno

theorem sound_openText (grammar : Grammar) (parser : Parser) (trim : Bool) (text : String) :
    Sound grammar trim ((parser.setTrim trim).openText grammar text) where
  trims := rfl
  spells := ⟨[], .base⟩
  fits := by
    intro token htoken
    rw [List.mem_singleton.1 htoken]
    exact Token.fits_of_isLeaf rfl trim
  input := fun _ htoken => absurd htoken List.not_mem_nil

/-! ## Accepted inputs -/

/-- A single token on the stack is a derivation tree. -/
theorem Sound.exists_root (h : Sound grammar trim parser) (hdepth : parser.stackDepth = 1) :
    ∃ root, parser.stack = [root, bottom grammar] ∧ root.Fits grammar.toTables trim := by
  obtain ⟨symbols, hspells⟩ := h.spells
  obtain ⟨root, hstack⟩ := hspells.exists_root hdepth
  exact ⟨root, hstack, h.fits root (by rw [hstack]; exact List.mem_cons_self)⟩

/-- Let the tables be consistent, and let no internal error have been reported. If the input is
    accepted with a single token on the stack, this is a derivation tree, and without trimming
    the symbols that were read before the lookahead are derived from its symbol. If an internal
    error is reported now, it is no stack underflow. -/
theorem accept_sound (hconsistent : grammar.Consistent) (parser : Parser) (trim : Bool)
    (text : String) {messages : List Message}
    (hcalls : Calls grammar ((parser.setTrim trim).openText grammar text) messages current)
    (hno : .internalError ∉ messages) :
    (∀ last, current.parse grammar = some (.accept, last) → last.stackDepth = 1 →
      ∃ root, last.stack = [root, bottom grammar] ∧ root.Fits grammar.toTables trim ∧
        (trim = false →
          grammar.Derives [root.symbol] (root.leaves.map Token.symbol) ∧
          ∃ n, last.input = [(((Lexer.openText text).behind grammar n).nextToken grammar).1] ∧
            root.leaves.map Token.symbol =
              (Lexer.significant grammar ((Lexer.openText text).readings grammar n)).map
                fun reading => reading.token.symbol)) ∧
    ∀ last, current.parse grammar = some (.internalError, last) →
      ∃ failing, Silent grammar current failing ∧
        failing.step grammar = (some .internalError, last) ∧ ¬ Underflows grammar failing := by
  have hsound : Sound grammar trim current :=
    hcalls.invariant (Sound.step hconsistent) hno (sound_openText grammar parser trim text)
  constructor
  · intro last hparse hdepth
    obtain ⟨before, hsilent, haccept⟩ := parse_eq_some_iff.1 hparse
    have hlast : Sound grammar trim last :=
      Sound.step hconsistent _ _ _ (hsilent.invariant (Sound.step hconsistent) hsound)
        (step_eq_iff.1 haccept) (by nofun)
    obtain ⟨root, hstack, hfits⟩ := hlast.exists_root hdepth
    refine ⟨root, hstack, hfits, ?_⟩
    rintro rfl
    have hderives : grammar.Derives [root.symbol] (root.leaves.map Token.symbol) :=
      root.derives_leaves (fun node hnode => (hfits node hnode).1)
        (fun node hnode => (hfits node hnode).2 rfl)
    have hkey : Unchanged false Token.symbol := ⟨fun _ _ => rfl, nofun⟩
    have hfollows := (hcalls.call hparse).follows hkey (by simpa using hno)
    obtain ⟨lookahead, rest, hinput⟩ : ∃ lookahead rest, last.input = lookahead :: rest := by
      cases step_eq_iff.1 haccept with
      | accept h => exact ⟨_, _, h.input⟩
    obtain ⟨rfl, n, -, rfl, hleaves⟩ := hfollows.leaves_root hstack hinput
    exact ⟨hderives, n, hinput, hleaves⟩
  · intro last hparse
    obtain ⟨failing, hsilent, hfails⟩ := parse_eq_some_iff.1 hparse
    exact ⟨failing, hsilent, hfails,
      (hsilent.invariant (Sound.step hconsistent) hsound).not_underflows hconsistent⟩

theorem accept_sound_sampleFile :
    ∃ grammar messages current last, Grammar.ofBytes sampleFile = .ok grammar ∧
      grammar.Consistent ∧
      Calls grammar (((start grammar).setTrim false).openText grammar " a ") messages current ∧
      .internalError ∉ messages ∧ current.parse grammar = some (.accept, last) ∧
      last.stackDepth = 1 ∧
      ∃ root, last.stack = [root, bottom grammar] ∧ root.Fits grammar.toTables false ∧
        grammar.Derives [root.symbol] (root.leaves.map Token.symbol) := by
  have hpasses : Grammar.passes sampleFile (fun grammar =>
      grammar.checkPast (fun state => if state = 0 then [] else if state = 1 then [3] else [4]) &&
        (calls grammar 5 (((start grammar).setTrim false).openText grammar " a ")).any fun run =>
          !run.1.contains .internalError &&
            (run.2.parse grammar).any fun found =>
              found.1 = .accept && found.2.stackDepth = 1) = true := by decide +kernel
  obtain ⟨grammar, hgrammar, htest⟩ := Grammar.exists_of_passes hpasses
  simp only [Bool.and_eq_true, Bool.not_eq_true', Option.any_eq_true, decide_eq_true_eq] at htest
  obtain ⟨hcheck, ⟨messages, current⟩, hrun, hmessages, ⟨message, last⟩, hparse, rfl, hdepth⟩ :=
    htest
  have hcalls : Calls grammar (((start grammar).setTrim false).openText grammar " a ") messages
      current := calls_iff.2 ⟨5, hrun⟩
  have hno : .internalError ∉ messages := by simpa using hmessages
  have hconsistent := (Grammar.loaded_of_ofBytes hgrammar).consistent_of_checkPast hcheck
  obtain ⟨root, hstack, hfits, hplain⟩ :=
    (accept_sound hconsistent (start grammar) false " a " hcalls hno).1 last hparse hdepth
  exact ⟨grammar, messages, current, last, hgrammar, hconsistent, hcalls, hno, hparse, hdepth,
    root, hstack, hfits, (hplain rfl).1⟩

/-- The letters `a` and `b`, of which tables reduce only `b`, and then do not know where to go. -/
def lostFile : List UInt8 :=
  textBytes "Any header" ++ [
    kindRecord .tableCounts [.uint16 5, .uint16 2, .uint16 1, .uint16 3, .uint16 4, .uint16 0],
    kindRecord .symbol [.uint16 0, .string "EOF", .uint16 3],
    kindRecord .symbol [.uint16 1, .string "Error", .uint16 7],
    kindRecord .symbol [.uint16 2, .string "a", .uint16 1],
    kindRecord .symbol [.uint16 3, .string "b", .uint16 1],
    kindRecord .symbol [.uint16 4, .string "S", .uint16 0],
    kindRecord .production [.uint16 0, .uint16 4, .empty, .uint16 3],
    kindRecord .lrState [.uint16 0, .empty, .uint16 2, .uint16 1, .uint16 1, .empty,
      .uint16 4, .uint16 3, .uint16 3, .empty],
    kindRecord .lrState [.uint16 1, .empty, .uint16 3, .uint16 1, .uint16 2, .empty],
    kindRecord .lrState [.uint16 2, .empty, .uint16 0, .uint16 2, .uint16 0, .empty],
    kindRecord .lrState [.uint16 3, .empty, .uint16 0, .uint16 4, .uint16 0, .empty],
    kindRecord .characterSet [.uint16 0, .uint16 0, .uint16 1, .empty, .uint16 97, .uint16 97],
    kindRecord .characterSet [.uint16 1, .uint16 0, .uint16 1, .empty, .uint16 98, .uint16 98],
    kindRecord .dfaState [.uint16 0, .boolean false, .uint16 0, .empty,
      .uint16 0, .uint16 1, .empty, .uint16 1, .uint16 2, .empty],
    kindRecord .dfaState [.uint16 1, .boolean true, .uint16 2, .empty],
    kindRecord .dfaState [.uint16 2, .boolean true, .uint16 3, .empty]].flatMap recordBytes

/-- Calls behind an internal error may accept a tree that is no derivation tree. -/
theorem accept_unsound_lostFile :
    ∃ grammar messages current last root, Grammar.ofBytes lostFile = .ok grammar ∧
      grammar.Consistent ∧
      Calls grammar (((start grammar).setTrim false).openText grammar "ab") messages current ∧
      current.parse grammar = some (.accept, last) ∧ last.stackDepth = 1 ∧
      last.stack.head? = some root ∧ ¬ root.HasBody grammar.toTables := by
  have hpasses : Grammar.passes lostFile (fun grammar =>
      grammar.checkPast (fun state =>
        if state = 0 then [] else if state = 1 then [2] else if state = 2 then [3] else [4]) &&
        (calls grammar 5 (((start grammar).setTrim false).openText grammar "ab")).any fun run =>
          (run.2.parse grammar).any fun found =>
            found.1 = .accept && found.2.stackDepth = 1 &&
              found.2.stack.head?.any fun root =>
                root.payload.reduction?.any fun built =>
                  (grammar.production? built.1).any fun production =>
                    built.2.map Token.symbol != production.body) = true := by decide +kernel
  obtain ⟨grammar, hgrammar, htest⟩ := Grammar.exists_of_passes hpasses
  simp only [Bool.and_eq_true, Option.any_eq_true, decide_eq_true_eq, bne_iff_ne] at htest
  obtain ⟨hcheck, ⟨messages, current⟩, hrun, ⟨message, last⟩, hparse, ⟨rfl, hdepth⟩, root, hroot,
    ⟨index, children⟩, hpayload, production, hproduction, hne⟩ := htest
  have hwrong : ¬ root.HasBody grammar.toTables := by
    intro hbody
    obtain ⟨same, hsame, hchildren⟩ := hbody index children hpayload
    rw [hproduction] at hsame
    cases hsame
    exact hne hchildren
  exact ⟨grammar, messages, current, last, root, hgrammar,
    (Grammar.loaded_of_ofBytes hgrammar).consistent_of_checkPast hcheck,
    calls_iff.2 ⟨5, hrun⟩, hparse, hdepth, hroot, hwrong⟩

end Parser

end GoldTables

import GoldTables.Proofs.LexerRuns
import GoldTables.Proofs.StepRuns
import GoldTables.Proofs.TreeWalks

/-!
# Where the tokens are that were read

A parser of a text that only calls `parse` puts every token it reads on its
stack, except for noise, and there it stays: at first by itself, and then as a
leaf of the trees that productions build. The leaves of the stack are the
tokens that were read, up to the one that waits, as long as no tokens were lost
in an internal error.

Results:
* `Calls.kept`, `Calls.invariant`: what steps keep that report messages that are allowed, such
  calls keep.
* `Calls.logged`: what steps keep with the messages so far, calls keep.
* `Follows.step`: the leaves of the stack are the tokens that were read, of which there are as
  many as messages that say so.
-/

namespace GoldTables

namespace Parser

variable {grammar : Grammar} {parser next current first : Parser} {message : Option Message}
  {messages : List Message}

/-! ## Calls -/

/-- Calls of `parse` lead from a parser to another, and report messages. -/
inductive Calls (grammar : Grammar) (first : Parser) : List Message → Parser → Prop where
  | nil : Calls grammar first [] first
  | call {messages : List Message} {message : Message} {current next : Parser}
    (h : Calls grammar first messages current)
    (hparse : current.parse grammar = some (message, next)) :
    Calls grammar first (messages ++ [message]) next

/-- Calls `parse` a number of times; `none` if one of the calls has no answer. -/
def calls (grammar : Grammar) : Nat → Parser → Option (List Message × Parser)
  | 0, parser => some ([], parser)
  | n + 1, parser => do
    let (messages, current) ← calls grammar n parser
    let (message, next) ← current.parse grammar
    return (messages ++ [message], next)

theorem calls_succ {n : Nat} {reported : Message}
    (h : calls grammar n first = some (messages, current))
    (hparse : current.parse grammar = some (reported, next)) :
    calls grammar (n + 1) first = some (messages ++ [reported], next) := by
  rw [calls, h]
  simp [hparse]

theorem calls_iff :
    Calls grammar first messages current ↔
      ∃ n, calls grammar n first = some (messages, current) := by
  constructor
  · intro h
    induction h with
    | nil => exact ⟨0, rfl⟩
    | call _ hparse ih =>
      obtain ⟨n, hn⟩ := ih
      exact ⟨n + 1, calls_succ hn hparse⟩
  · rintro ⟨n, hn⟩
    induction n generalizing messages current with
    | zero =>
      cases hn
      exact .nil
    | succ n ih =>
      obtain ⟨⟨before, middle⟩, hbefore, hn⟩ := Option.bind_eq_some_iff.1 hn
      obtain ⟨⟨message, next⟩, hparse, hn⟩ := Option.bind_eq_some_iff.1 hn
      cases hn
      exact .call (ih hbefore) hparse

/-- Something that every step keeps that reports a message that is allowed, or none. -/
def Keeps (grammar : Grammar) (allowed : Message → Prop) (inv : Parser → Prop) : Prop :=
  ∀ parser message next, inv parser → Step grammar parser message next →
    (∀ reported, message = some reported → allowed reported) → inv next

/-- Something that every step keeps that reports no internal error. -/
def Lasts (grammar : Grammar) (inv : Parser → Prop) : Prop :=
  ∀ parser message next, inv parser → Step grammar parser message next →
    message ≠ some .internalError → inv next

section

variable {allowed : Message → Prop} {inv : Parser → Prop}

theorem Lasts.keeps (h : Lasts grammar inv) : Keeps grammar (· ≠ .internalError) inv := by
  intro parser message next hinv hstep hallowed
  refine h parser message next hinv hstep ?_
  exact fun hmessage => hallowed _ hmessage rfl

theorem Silent.kept (hkeeps : Keeps grammar allowed inv) (hsilent : Silent grammar parser next)
    (h : inv parser) : inv next := by
  induction hsilent with
  | refl => exact h
  | step hstep _ ih => exact ih (hkeeps _ _ _ h (step_eq_iff.1 hstep) nofun)

theorem Silent.invariant (hlasts : Lasts grammar inv) (hsilent : Silent grammar parser next)
    (h : inv parser) : inv next :=
  hsilent.kept hlasts.keeps h

theorem kept_of_parse {message : Message} (hkeeps : Keeps grammar allowed inv)
    (hparse : parser.parse grammar = some (message, next)) (hallowed : allowed message)
    (h : inv parser) : inv next := by
  obtain ⟨last, hsilent, hlast⟩ := parse_eq_some_iff.1 hparse
  refine hkeeps _ _ _ (hsilent.kept hkeeps h) (step_eq_iff.1 hlast) ?_
  rintro _ ⟨⟩
  exact hallowed

/-- What steps keep that report messages that are allowed, calls keep that report such messages. -/
theorem Calls.kept (hkeeps : Keeps grammar allowed inv)
    (hcalls : Calls grammar first messages current)
    (hallowed : ∀ message ∈ messages, allowed message) (h : inv first) : inv current := by
  induction hcalls with
  | nil => exact h
  | call _ hparse ih =>
    rw [List.forall_mem_append, List.forall_mem_singleton] at hallowed
    exact kept_of_parse hkeeps hparse hallowed.2 (ih hallowed.1)

/-- What steps keep that report no internal error, calls keep that report none. -/
theorem Calls.invariant (hlasts : Lasts grammar inv)
    (hcalls : Calls grammar first messages current) (hno : .internalError ∉ messages)
    (h : inv first) : inv current := by
  refine hcalls.kept hlasts.keeps ?_ h
  rintro message hmem rfl
  exact hno hmem

/-- What steps keep with the messages that were reported so far, calls keep. -/
theorem Calls.logged (inv : List Message → Parser → Prop)
    (hstep : ∀ messages parser message next, inv messages parser →
      Step grammar parser message next → message ≠ some .internalError →
      inv (messages ++ message.toList) next)
    (hcalls : Calls grammar first messages current) (hno : .internalError ∉ messages)
    (h : inv [] first) : inv messages current := by
  induction hcalls with
  | nil => exact h
  | @call messages message current next _ hparse ih =>
    rw [List.mem_append, List.mem_singleton, not_or] at hno
    have hsilent : Keeps grammar (fun _ => False) (inv messages) := by
      intro parser message next hinv hnext hnone
      have hmessage : message = none := Option.eq_none_iff_forall_not_mem.2 hnone
      rw [← List.append_nil messages]
      subst hmessage
      exact hstep messages parser none next hinv hnext nofun
    obtain ⟨last, hbefore, hlast⟩ := parse_eq_some_iff.1 hparse
    have hinv : inv messages last := hbefore.kept hsilent (ih hno.1)
    refine hstep messages last (some message) next hinv (step_eq_iff.1 hlast) ?_
    rintro ⟨⟩
    exact hno.2 rfl

end

/-! ## The leaves of a stack -/

/-- The leaves of the tokens on a stack in the order of the text, without the token at the
    bottom. -/
def frontier (stack : List Token) : List Token :=
  stack.dropLast.reverse.flatMap Token.leaves

/-- What the tokens on a stack list in the order of the text comes behind what those below list. -/
theorem flatMap_stack_append {α : Type} (list : Token → List α) (tokens : List Token)
    (exposed : Token) (below : List Token) :
    (tokens ++ exposed :: below).dropLast.reverse.flatMap list =
      (exposed :: below).dropLast.reverse.flatMap list ++ tokens.reverse.flatMap list := by
  rw [List.dropLast_append_cons, List.reverse_append, List.flatMap_append]

theorem frontier_append (tokens : List Token) (exposed : Token) (below : List Token) :
    frontier (tokens ++ exposed :: below) =
      frontier (exposed :: below) ++ tokens.reverse.flatMap Token.leaves :=
  flatMap_stack_append Token.leaves tokens exposed below

theorem frontier_cons {token exposed : Token} {below : List Token} :
    frontier (token :: exposed :: below) = frontier (exposed :: below) ++ token.leaves := by
  rw [← List.singleton_append, frontier_append]
  simp

theorem frontier_pair (root lowest : Token) : frontier [root, lowest] = root.leaves := by
  rw [frontier_cons]
  rfl

/-- What of a token is seen through `key` the parser does not change: its state is not seen, nor
    its symbol if the parser renames tokens. -/
structure Unchanged {α : Type} (trim : Bool) (key : Token → α) : Prop where
  state : ∀ token target, key { token with state := target } = key token
  symbol : trim = true → ∀ token head, key { token with symbol := head } = key token

section

variable {α : Type} {key : Token → α} {trim : Bool}

theorem map_leaves_eq {token other : Token} (hpayload : token.payload = other.payload)
    (hkey : key token = key other) : token.leaves.map key = other.leaves.map key := by
  obtain ⟨symbol, payload, position, state⟩ := token
  obtain ⟨otherSymbol, otherPayload, otherPosition, otherState⟩ := other
  cases hpayload
  cases payload with
  | reduction index children => rw [Token.leaves_reduction, Token.leaves_reduction]
  | text text => rw [Token.leaves_of_isLeaf rfl, Token.leaves_of_isLeaf rfl]; simp [hkey]
  | value value => rw [Token.leaves_of_isLeaf rfl, Token.leaves_of_isLeaf rfl]; simp [hkey]

/-! ## Up to the token that waits -/

/-- The leaves of a stack are the first tokens that were read from `source`, except for noise. -/
def Covers (grammar : Grammar) (key : Token → α) (source : Lexer) (n : Nat)
    (stack : List Token) : Prop :=
  (frontier stack).map key =
    (Lexer.significant grammar (source.readings grammar n)).map fun reading => key reading.token

/-- The tokens that were read, a number of them, lie on the stack, except for one that may wait. -/
inductive Reads (grammar : Grammar) (key : Token → α) (source : Lexer) (parser : Parser) :
    Nat → Prop where
  | idle {n : Nat} (hinput : parser.input = []) (hlexer : parser.lexer = source.behind grammar n)
    (hcovers : Covers grammar key source n parser.stack) : Reads grammar key source parser n
  | waiting {n : Nat} (hinput : parser.input = [((source.behind grammar n).nextToken grammar).1])
    (hlexer : parser.lexer = source.behind grammar (n + 1))
    (hcovers : Covers grammar key source n parser.stack) :
    Reads grammar key source parser (n + 1)

variable {source : Lexer} {n : Nat} {stack : List Token}

/-- The token behind the first ones counts unless it is noise. -/
theorem significant_readings_succ (grammar : Grammar) (source : Lexer) (n : Nat) :
    Lexer.significant grammar (source.readings grammar (n + 1)) =
      Lexer.significant grammar (source.readings grammar n) ++
        Lexer.significant grammar [⟨((source.behind grammar n).nextToken grammar).1,
          (source.behind grammar (n + 1)).inGroup⟩] := by
  rw [Lexer.readings_succ, Lexer.significant_append]

/-- Noise is not missed. -/
theorem Covers.noise (h : Covers grammar key source n stack)
    (hkind : grammar.kind? ((source.behind grammar n).nextToken grammar).1.symbol = some .noise) :
    Covers grammar key source (n + 1) stack := by
  rw [Covers, significant_readings_succ, Lexer.significant_cons_noise ⟨_, _⟩ hkind]
  exact h.trans (congrArg _ (List.append_nil _).symm)

/-- A token that is shifted is the next leaf. -/
theorem Covers.shift (h : Covers grammar key source n stack) (hkey : Unchanged trim key)
    (hstack : stack ≠ []) (target : UInt16)
    (hkind : grammar.kind? ((source.behind grammar n).nextToken grammar).1.symbol ≠ some .noise) :
    Covers grammar key source (n + 1)
      ({ ((source.behind grammar n).nextToken grammar).1 with state := target } :: stack) := by
  obtain ⟨text, htext⟩ := Lexer.nextToken_text (source.behind grammar n) grammar
  have hleaf : Token.isLeaf
      { ((source.behind grammar n).nextToken grammar).1 with state := target } = true := by
    rw [Token.isLeaf, htext]
    rfl
  obtain ⟨exposed, below, rfl⟩ := List.exists_cons_of_ne_nil hstack
  rw [Covers, significant_readings_succ, Lexer.significant_cons ⟨_, _⟩ hkind, frontier_cons,
    List.map_append, List.map_append, Token.leaves_of_isLeaf hleaf, List.map_singleton, hkey.state]
  exact congrArg (· ++ _) h

/-- The leaves of the stack matter, and not the trees over them. -/
theorem Reads.of_leaves (h : Reads grammar key source parser n)
    (hleaves : (frontier next.stack).map key = (frontier parser.stack).map key)
    (hinput : next.input = parser.input) (hlexer : next.lexer = parser.lexer) :
    Reads grammar key source next n := by
  cases h with
  | idle hnil hbehind hcovers =>
    exact .idle (hinput.trans hnil) (hlexer.trans hbehind) (hleaves.trans hcovers)
  | waiting hsingle hbehind hcovers =>
    exact .waiting (hinput.trans hsingle) (hlexer.trans hbehind) (hleaves.trans hcovers)

/-- The lexer is behind the tokens that were read. -/
theorem Reads.lexer_eq (h : Reads grammar key source parser n) :
    parser.lexer = source.behind grammar n := by
  cases h with
  | idle _ hlexer _ => exact hlexer
  | waiting _ hlexer _ => exact hlexer

/-- A token that waits is the last one that was read. -/
theorem Reads.of_input {lookahead : Token} {rest : List Token}
    (h : Reads grammar key source parser n) (hinput : parser.input = lookahead :: rest) :
    rest = [] ∧ ∃ before, n = before + 1 ∧
      lookahead = ((source.behind grammar before).nextToken grammar).1 ∧
      Covers grammar key source before parser.stack := by
  cases h with
  | idle hnil _ _ =>
    rw [hinput] at hnil
    cases hnil
  | @waiting before hsingle _ hcovers =>
    rw [hinput] at hsingle
    cases hsingle
    exact ⟨rfl, before, rfl, rfl, hcovers⟩

/-- A parser of a text that has read a number of tokens, and was not handled otherwise. -/
structure Follows (grammar : Grammar) (key : Token → α) (trim : Bool) (source : Lexer)
    (n : Nat) (parser : Parser) : Prop where
  trim : parser.trim = trim
  stack : parser.stack ≠ []
  reads : Reads grammar key source parser n

/-- The leaves of the stack stay the tokens that were read. A token more was read if the step says
    so. -/
theorem Follows.step (hkey : Unchanged trim key)
    (h : Follows grammar key trim source n parser) (hstep : Step grammar parser message next)
    (hno : message ≠ some .internalError) :
    Follows grammar key trim source (n + message.toList.count .tokenRead) next := by
  have hlooked : ∀ lookahead, Reads grammar key source (parser.lookAt lookahead) n :=
    fun _ => h.reads.of_leaves rfl rfl rfl
  cases hstep with
  | notLoaded => exact h
  | tokenRead hopened hinput =>
    refine ⟨h.trim, h.stack, ?_⟩
    cases h.reads with
    | idle _ hlexer hcovers =>
      rw [hlexer]
      exact .waiting rfl (Lexer.behind_succ n source).symm hcovers
    | waiting hsingle _ _ =>
      rw [hinput] at hsingle
      cases hsingle
  | stuck => exact h
  | groupError => exact ⟨h.trim, h.stack, hlooked _⟩
  | unknownSymbol => exact absurd rfl hno
  | noise hopened hinput hgroup hkind =>
    have hlexer := h.reads.lexer_eq
    obtain ⟨rfl, before, rfl, rfl, hcovers⟩ := h.reads.of_input hinput
    exact ⟨h.trim, h.stack, .idle rfl hlexer (hcovers.noise hkind)⟩
  | lexicalError => exact ⟨h.trim, h.stack, hlooked _⟩
  | syntaxError => exact ⟨h.trim, h.stack, h.reads.of_leaves rfl rfl rfl⟩
  | accept => exact ⟨h.trim, h.stack, hlooked _⟩
  | shift hhandles haction =>
    have hlexer := h.reads.lexer_eq
    obtain ⟨rfl, before, rfl, rfl, hcovers⟩ := h.reads.of_input hhandles.input
    obtain ⟨kind, hkind, hnoise, _⟩ := hhandles.kind
    have hcounts : grammar.kind? ((source.behind grammar before).nextToken grammar).1.symbol ≠
        some .noise := by
      rw [hkind]
      exact fun h => hnoise (Option.some.inj h)
    exact ⟨h.trim, List.cons_ne_nil _ _,
      .idle rfl hlexer (hcovers.shift hkey h.stack _ hcounts)⟩
  | strayGoto => exact absurd rfl hno
  | unknownProduction => exact absurd rfl hno
  | underflow => exact absurd rfl hno
  | @rename lookahead top exposed rest below index target production hreduces htrim hstack hgoto =>
    have hrenames : trim = true := h.trim ▸ (Bool.and_eq_true_iff.1 htrim).1
    have hseen : key { top with symbol := production.head, state := target } = key top :=
      (hkey.state { top with symbol := production.head } target).trans
        (hkey.symbol hrenames top production.head)
    refine ⟨h.trim, List.cons_ne_nil _ _, h.reads.of_leaves ?_ rfl rfl⟩
    rw [hstack, frontier_cons, frontier_cons, List.map_append, List.map_append]
    exact congrArg _ (map_leaves_eq rfl hseen)
  | renameLost => exact absurd rfl hno
  | reduction hreduces htrim hstack hlength hgoto =>
    refine ⟨h.trim, List.cons_ne_nil _ _, h.reads.of_leaves ?_ rfl rfl⟩
    rw [hstack, frontier_append, List.reverse_reverse, frontier_cons, Token.leaves_reduction]
  | reductionLost => exact absurd rfl hno

/-- A single token on the stack has all the leaves. -/
theorem Follows.leaves_root {root lowest lookahead : Token} {rest : List Token}
    (h : Follows grammar key trim source n parser) (hstack : parser.stack = [root, lowest])
    (hinput : parser.input = lookahead :: rest) :
    rest = [] ∧ ∃ before, n = before + 1 ∧
      lookahead = ((source.behind grammar before).nextToken grammar).1 ∧
      root.leaves.map key =
        (Lexer.significant grammar (source.readings grammar before)).map
          fun reading => key reading.token := by
  obtain ⟨hrest, before, hn, hlookahead, hcovers⟩ := h.reads.of_input hinput
  rw [Covers, hstack, frontier_pair] at hcovers
  exact ⟨hrest, before, hn, hlookahead, hcovers⟩

/-- The leaves of the stack are the tokens that were read, as many as the messages say, while no
    internal error is reported. -/
theorem Calls.follows (hkey : Unchanged trim key) {text : String}
    (hcalls : Calls grammar ((parser.setTrim trim).openText grammar text) messages current)
    (hno : .internalError ∉ messages) :
    Follows grammar key trim (.openText text) (messages.count .tokenRead) current := by
  refine hcalls.logged (fun messages =>
    Follows grammar key trim (.openText text) (messages.count .tokenRead)) ?_ hno ?_
  · intro messages parser message next h hstep hmessage
    rw [List.count_append]
    exact h.step hkey hstep hmessage
  · exact ⟨rfl, List.cons_ne_nil _ _, .idle rfl rfl rfl⟩

end

end Parser

end GoldTables

import GoldTables.Proofs.LoadedGrammars
import GoldTables.Proofs.ParsedTokens

/-!
# No token is lost

A token that was read waits until it is dropped as noise or put on the stack,
and under the productions that are applied later it keeps its place among the
other leaves. So the stack and the queue together hold all tokens that were
read except for noise, in the order of the text, whatever the tables say.

Results:
* `tokens_in_order`: the leaves of the stack and the token that waits are the tokens that were
  read, and the leaves of an accepted tree are those in front of the lookahead.
-/

namespace GoldTables.Parser

variable {grammar : Grammar} {parser current : Parser} {messages : List Message}

/-- What a parser never changes of a leaf: its text and its position. -/
def shown (token : Token) : Option String × Position := (token.payload.text?, token.position)

theorem unchanged_shown (trim : Bool) : Unchanged trim shown := ⟨fun _ _ => rfl, fun _ _ _ => rfl⟩

/-- The tokens of a queue that are not noise. -/
def significantTokens (grammar : Grammar) (input : List Token) : List Token :=
  input.filter fun token => grammar.kind? token.symbol ≠ some .noise

section

variable {α : Type} {key : Token → α} {source : Lexer} {n : Nat}

/-- What waits comes behind the leaves of the stack. -/
theorem Reads.in_order (h : Reads grammar key source parser n) :
    (frontier parser.stack ++ significantTokens grammar parser.input).map key =
      (Lexer.significant grammar (source.readings grammar n)).map (key ·.token) := by
  cases h with
  | idle hinput hlexer hcovers =>
    rw [hinput, significantTokens, List.filter_nil, List.append_nil]
    exact hcovers
  | @waiting before hinput hlexer hcovers =>
    rw [hinput, List.map_append, significant_readings_succ, List.map_append]
    refine congrArg₂ (· ++ ·) hcovers ?_
    by_cases hnoise :
        grammar.kind? ((source.behind grammar before).nextToken grammar).1.symbol = some .noise
    · rw [Lexer.significant_cons_noise ⟨_, _⟩ hnoise, significantTokens,
        List.filter_cons_of_neg (by simpa)]
      rfl
    · rw [Lexer.significant_cons ⟨_, _⟩ hnoise, significantTokens,
        List.filter_cons_of_pos (by simpa)]
      rfl

theorem Reads.length_input_le (h : Reads grammar key source parser n) :
    parser.input.length ≤ 1 := by
  cases h with
  | idle hinput _ _ => rw [hinput]; exact Nat.zero_le 1
  | waiting hinput _ _ => rw [hinput]; exact Nat.le_refl 1

end

/-- Behind any calls of `parse` on a text that report no internal error, the lexer has returned as
    many tokens as messages say. The leaves of the stack and what waits behind them are these
    tokens in order, except for noise, with their texts and positions, and no more than one token
    waits. If the input is accepted now with a single token on the stack, the last token that was
    read is the lookahead, and the leaves of the tree are the tokens before that are not noise. -/
theorem tokens_in_order (parser : Parser) (trim : Bool) (text : String)
    (hcalls : Calls grammar ((parser.setTrim trim).openText grammar text) messages current)
    (hno : .internalError ∉ messages) :
    current.lexer = (Lexer.openText text).behind grammar (messages.count .tokenRead) ∧
      (frontier current.stack ++ significantTokens grammar current.input).map shown =
        (Lexer.significant grammar ((Lexer.openText text).readings grammar
          (messages.count .tokenRead))).map (shown ·.token) ∧
      current.input.length ≤ 1 ∧
      ∀ last, current.parse grammar = some (.accept, last) → last.stackDepth = 1 →
        ∃ root lowest lookahead before, last.stack = [root, lowest] ∧ last.input = [lookahead] ∧
          messages.count .tokenRead = before + 1 ∧
          lookahead = (((Lexer.openText text).behind grammar before).nextToken grammar).1 ∧
          grammar.kind? lookahead.symbol ≠ some .noise ∧
          root.leaves.map shown =
            (Lexer.significant grammar ((Lexer.openText text).readings grammar before)).map
              (shown ·.token) := by
  have h := hcalls.follows (unchanged_shown trim) hno
  refine ⟨h.reads.lexer_eq, h.reads.in_order, h.reads.length_input_le, ?_⟩
  intro last hparse hdepth
  have hlast :
      Follows grammar shown trim (.openText text) (messages.count .tokenRead) last := by
    -- the last call reads no token
    have hcount : (messages ++ [Message.accept]).count .tokenRead = messages.count .tokenRead :=
      List.count_append
    rw [← hcount]
    exact (hcalls.call hparse).follows (unchanged_shown trim) (by simpa using hno)
  obtain ⟨before, -, haccept⟩ := parse_eq_some_iff.1 hparse
  cases step_eq_iff.1 haccept with
  | @accept lookahead rest hhandles haction =>
    obtain ⟨kind, hkind, hnoise, -⟩ := hhandles.kind
    have hlength : before.stack.length = 2 := by
      replace hdepth : before.stack.length - 1 = 1 := hdepth
      omega
    obtain ⟨root, lowest, hstack⟩ := List.length_eq_two.1 hlength
    obtain ⟨rfl, n, hn, hlookahead, hleaves⟩ := hlast.leaves_root hstack hhandles.input
    refine ⟨root, lowest, lookahead, n, hstack, hhandles.input, hn, hlookahead, ?_, hleaves⟩
    rw [hkind]
    exact fun heq => hnoise (Option.some.inj heq)

theorem tokens_in_order_sampleFile :
    ∃ grammar messages current last root, Grammar.ofBytes sampleFile = .ok grammar ∧
      Calls grammar (((start grammar).setTrim false).openText grammar " a ") messages current ∧
      .internalError ∉ messages ∧ messages.count .tokenRead = 4 ∧
      current.parse grammar = some (.accept, last) ∧ last.stackDepth = 1 ∧
      last.stack.head? = some root ∧
      root.leaves.map shown =
        (Lexer.significant grammar ((Lexer.openText " a ").readings grammar 3)).map
          (shown ·.token) ∧
      root.leaves.map (·.payload.text?) = [some "a"] := by
  have hpasses : Grammar.passes sampleFile (fun grammar =>
      (calls grammar 5 (((start grammar).setTrim false).openText grammar " a ")).any fun run =>
        !run.1.contains .internalError && run.1.count .tokenRead = 4 &&
          (run.2.parse grammar).any fun found =>
            found.1 = .accept && found.2.stackDepth = 1 &&
              found.2.stack.head?.any fun root =>
                root.leaves.map (·.payload.text?) = [some "a"]) = true := by decide +kernel
  obtain ⟨grammar, hgrammar, htest⟩ := Grammar.exists_of_passes hpasses
  simp only [Bool.and_eq_true, Bool.not_eq_true', Option.any_eq_true, decide_eq_true_eq] at htest
  obtain ⟨⟨messages, current⟩, hrun, ⟨hmessages, hcount⟩, ⟨message, last⟩, hparse,
    ⟨rfl, hdepth⟩, root, hroot, htexts⟩ := htest
  have hcalls : Calls grammar (((start grammar).setTrim false).openText grammar " a ") messages
      current := calls_iff.2 ⟨5, hrun⟩
  have hno : .internalError ∉ messages := by simpa using hmessages
  obtain ⟨-, -, -, haccepted⟩ := tokens_in_order (start grammar) false " a " hcalls hno
  obtain ⟨top, lowest, lookahead, before, hstack, -, hbefore, -, -, hleaves⟩ :=
    haccepted last hparse hdepth
  rw [hstack] at hroot
  cases hroot
  obtain rfl : before = 3 := Nat.succ.inj (hbefore.symm.trans hcount)
  exact ⟨grammar, messages, current, last, root, hgrammar, hcalls, hno, hcount, hparse, hdepth,
    by rw [hstack]; rfl, hleaves, htexts⟩

end GoldTables.Parser

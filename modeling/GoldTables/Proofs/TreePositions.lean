import GoldTables.Proofs.ReductionOrder

/-!
# Where the tokens of trees begin

A tree begins where its first leaf does. A tree without leaves has no text of
its own, and begins where the lookahead did in front of which it was built. In
both cases it is the place of a token that was read: of the one behind the
leaves to the left of the tree, of which there are as many as tokens that were
read before it.

Results:
* `BeginFrom.position_eq`: a token begins where its first leaf does.
* `Placed.step`: every step keeps the tokens on the stack in their places.
* `position_of_node`: every token on the stack begins where the token does that was read behind the
  leaves to its left.
-/

namespace GoldTables

/-! ## Subtrees -/

namespace Token

theorem nodes_eq_cons (token : Token) : token.nodes = token :: token.payload.nodes := by
  obtain ⟨symbol, payload, position, state⟩ := token
  rw [nodes]

mutual

/-- The tokens of a subtree lie side by side among those of the tree. -/
theorem isInfix_nodes {node : Token} (root : Token) (hnode : node ∈ root.nodes) :
    node.nodes <:+: root.nodes := by
  match root with
  | ⟨symbol, .text text, position, state⟩ =>
    rw [nodes_of_isLeaf rfl, List.mem_singleton] at hnode
    exact hnode ▸ List.infix_refl _
  | ⟨symbol, .value value, position, state⟩ =>
    rw [nodes_of_isLeaf rfl, List.mem_singleton] at hnode
    exact hnode ▸ List.infix_refl _
  | ⟨symbol, .reduction index children, position, state⟩ =>
    rw [nodes_reduction, List.mem_cons] at hnode
    rcases hnode with rfl | hnode
    · exact List.infix_refl _
    · rw [nodes_reduction index children]
      exact (isInfix_nodes_all children hnode).trans (List.suffix_cons _ _).isInfix

theorem isInfix_nodes_all {node : Token} (tokens : List Token)
    (hnode : node ∈ tokens.flatMap nodes) : node.nodes <:+: tokens.flatMap nodes := by
  match tokens with
  | [] => cases hnode
  | token :: tokens =>
    rw [List.flatMap_cons, List.mem_append] at hnode
    rw [List.flatMap_cons]
    rcases hnode with hnode | hnode
    · exact (isInfix_nodes token hnode).trans (List.prefix_append _ _).isInfix
    · exact (isInfix_nodes_all tokens hnode).trans (List.suffix_append _ _).isInfix

end

end Token

/-! ## Tokens in their places -/

/-- The tokens of a walk begin at positions behind the first `n`: each at the one behind those of
    the leaves that were visited before it. -/
def BeginFrom (positions : List Position) (n : ℕ) (nodes : List Token) : Prop :=
  ∀ left node right, nodes = left ++ node :: right →
    positions[n + left.countP Token.isLeaf]? = some node.position

section

variable {positions more : List Position} {n : ℕ} {nodes others : List Token} {node leaf : Token}

theorem beginFrom_nil (positions : List Position) (n : ℕ) : BeginFrom positions n [] := by
  intro left node right h
  cases left <;> cases h

theorem beginFrom_append :
    BeginFrom positions n (nodes ++ others) ↔ BeginFrom positions n nodes ∧
      BeginFrom positions (n + nodes.countP Token.isLeaf) others := by
  constructor
  · intro h
    constructor
    · intro left node right hnodes
      exact h left node (right ++ others) (by rw [hnodes]; simp)
    · intro left node right hothers
      have hplace := h (nodes ++ left) node right (by rw [hothers, List.append_assoc])
      rwa [List.countP_append, ← Nat.add_assoc] at hplace
  · rintro ⟨hnodes, hothers⟩ left node right h
    rcases List.append_eq_append_iff.1 h with ⟨before, rfl, hsplit⟩ | ⟨behind, hsplit, hright⟩
    · rw [List.countP_append, ← Nat.add_assoc]
      exact hothers before node right hsplit
    · cases behind with
      | nil =>
        have hfirst := hothers [] node right hright.symm
        rwa [hsplit, List.append_nil] at hfirst
      | cons first behind =>
        obtain ⟨rfl, -⟩ := List.cons.inj hright
        exact hnodes left node behind hsplit

theorem beginFrom_singleton :
    BeginFrom positions n [node] ↔ positions[n]? = some node.position := by
  constructor
  · exact fun h => h [] node [] rfl
  · rintro h left other right hsplit
    cases left with
    | nil =>
      cases hsplit
      exact h
    | cons first left =>
      obtain ⟨-, hnil⟩ := List.cons.inj hsplit
      cases left <;> cases hnil

/-- More positions may follow. -/
theorem BeginFrom.mono (h : BeginFrom positions n nodes) (hbefore : positions <+: more) :
    BeginFrom more n nodes := by
  intro left node right hnodes
  have hplace := h left node right hnodes
  obtain ⟨behind, rfl⟩ := hbefore
  rw [List.getElem?_append_left (List.getElem?_eq_some_iff.1 hplace).1]
  exact hplace

/-- The first leaf begins where the first token does. -/
theorem BeginFrom.first_leaf (h : BeginFrom positions n nodes)
    (hleaf : (nodes.filter Token.isLeaf).head? = some leaf) :
    positions[n]? = some leaf.position := by
  rw [List.head?_filter, List.find?_eq_some_iff_append] at hleaf
  obtain ⟨-, left, right, hnodes, hleft⟩ := hleaf
  have hnone : left.countP Token.isLeaf = 0 := by
    rw [List.countP_eq_zero]
    intro node hmem
    simpa using hleft node hmem
  have hplace := h left leaf right hnodes
  rwa [hnone] at hplace

/-- A token begins where its first leaf does. -/
theorem BeginFrom.position_eq (h : BeginFrom positions n node.nodes)
    (hleaf : node.leaves.head? = some leaf) : node.position = leaf.position := by
  rw [Token.leaves_eq_filter] at hleaf
  have hplace := h.first_leaf hleaf
  have hnode := h [] node node.payload.nodes node.nodes_eq_cons
  exact Option.some.inj (hnode.symm.trans hplace)

/-- A token that is renamed stays in its place. -/
theorem BeginFrom.rename (h : BeginFrom positions n node.nodes) (symbol state : UInt16) :
    BeginFrom positions n (Token.nodes { node with symbol := symbol, state := state }) := by
  rw [Token.nodes_eq_cons, ← List.singleton_append, beginFrom_append, beginFrom_singleton] at h ⊢
  exact h

/-- A token that a production builds begins where its first child does, or where the lookahead does
    if it has no children. -/
theorem BeginFrom.reduction {children : List Token} {lookahead : Token}
    (h : BeginFrom positions n (children.flatMap Token.nodes))
    (hlookahead : children = [] → positions[n]? = some lookahead.position)
    (head index state : UInt16) :
    BeginFrom positions n (Token.nodes
      ⟨head, .reduction index children, Parser.startOf children lookahead, state⟩) := by
  rw [Token.nodes_reduction, ← List.singleton_append, beginFrom_append, beginFrom_singleton]
  refine ⟨?_, h⟩
  cases children with
  | nil => exact hlookahead rfl
  | cons first children =>
    rw [List.flatMap_cons, Token.nodes_eq_cons, List.cons_append] at h
    exact h [] first _ rfl

end

namespace Parser

variable {grammar : Grammar} {parser next current : Parser} {message : Option Message}
  {messages : List Message} {trim : Bool} {source : Lexer} {n : ℕ}

/-! ## Stacks -/

/-- The tokens of the trees on a stack as a walk over one after the other visits them, without the
    token at the bottom. -/
def stackNodes (stack : List Token) : List Token := stack.dropLast.reverse.flatMap Token.nodes

section

variable {positions : List Position} {tokens below : List Token} {token exposed : Token}

theorem length_frontier (stack : List Token) :
    (frontier stack).length = (stackNodes stack).countP Token.isLeaf := by
  rw [List.countP_eq_length_filter, stackNodes, List.filter_flatMap, frontier]
  exact congrArg (fun list => (List.flatMap list _).length) (funext Token.leaves_eq_filter)

theorem beginFrom_stackNodes_append :
    BeginFrom positions n (stackNodes (tokens ++ exposed :: below)) ↔
      BeginFrom positions n (stackNodes (exposed :: below)) ∧
        BeginFrom positions (n + (stackNodes (exposed :: below)).countP Token.isLeaf)
          (tokens.reverse.flatMap Token.nodes) := by
  rw [stackNodes, flatMap_stack_append, beginFrom_append]
  rfl

theorem beginFrom_stackNodes_cons :
    BeginFrom positions n (stackNodes (token :: exposed :: below)) ↔
      BeginFrom positions n (stackNodes (exposed :: below)) ∧
        BeginFrom positions (n + (stackNodes (exposed :: below)).countP Token.isLeaf)
          token.nodes := by
  rw [← List.singleton_append, beginFrom_stackNodes_append]
  simp

end

/-! ## Steps -/

/-- The positions of the first tokens that are read and are not noise. -/
def positionsRead (grammar : Grammar) (source : Lexer) (n : ℕ) : List Position :=
  (Lexer.significant grammar (source.readings grammar n)).map (·.token.position)

theorem isPrefix_positionsRead (grammar : Grammar) (source : Lexer) (n : ℕ) :
    positionsRead grammar source n <+: positionsRead grammar source (n + 1) := by
  rw [positionsRead, positionsRead, significant_readings_succ, List.map_append]
  exact List.prefix_append _ _

theorem unchanged_position (trim : Bool) : Unchanged trim Token.position :=
  ⟨fun _ _ => rfl, fun _ _ _ => rfl⟩

/-- The token behind the leaves on the stack is the lookahead. -/
theorem Follows.position_lookahead {lookahead : Token} {rest : List Token}
    (h : Follows grammar Token.position trim source n parser)
    (hhandles : Handles grammar parser lookahead rest) :
    (positionsRead grammar source n)[(stackNodes parser.stack).countP Token.isLeaf]? =
      some lookahead.position := by
  obtain ⟨kind, hkind, hnoise, -⟩ := hhandles.kind
  obtain ⟨-, before, rfl, rfl, hcovers⟩ := h.reads.of_input hhandles.input
  have hcounts : grammar.kind? ((source.behind grammar before).nextToken grammar).1.symbol ≠
      some .noise := by
    rw [hkind]
    exact fun heq => hnoise (Option.some.inj heq)
  have hlength : (stackNodes parser.stack).countP Token.isLeaf =
      (positionsRead grammar source before).length := by
    rw [← length_frontier, ← List.length_map Token.position]
    exact congrArg List.length hcovers
  rw [positionsRead, significant_readings_succ, List.map_append,
    Lexer.significant_cons ⟨_, _⟩ hcounts, hlength]
  exact List.getElem?_concat_length

/-- A parser of a text that has read a number of tokens, and was not handled otherwise, with every
    token on its stack in its place. -/
structure Placed (grammar : Grammar) (trim : Bool) (source : Lexer) (n : ℕ) (parser : Parser) :
    Prop where
  follows : Follows grammar Token.position trim source n parser
  begins : BeginFrom (positionsRead grammar source n) 0 (stackNodes parser.stack)

/-- Every step that reports no internal error keeps the tokens on the stack in their places. -/
theorem Placed.step (h : Placed grammar trim source n parser)
    (hstep : Step grammar parser message next) (hno : message ≠ some .internalError) :
    Placed grammar trim source (n + message.toList.count .tokenRead) next := by
  refine ⟨h.follows.step (unchanged_position trim) hstep hno, ?_⟩
  have hbegins := h.begins
  cases hstep with
  | tokenRead => exact hbegins.mono (isPrefix_positionsRead grammar source n)
  | @shift lookahead rest target hhandles haction =>
    have hplace := h.follows.position_lookahead hhandles
    obtain ⟨-, before, -, rfl, -⟩ := h.follows.reads.of_input hhandles.input
    obtain ⟨text, htext⟩ := Lexer.nextToken_text (source.behind grammar before) grammar
    obtain ⟨exposed, below, hstack⟩ := List.exists_cons_of_ne_nil h.follows.stack
    rw [hstack] at hbegins hplace
    rw [hstack, beginFrom_stackNodes_cons, Token.nodes_of_isLeaf (by rw [Token.isLeaf, htext]; rfl),
      beginFrom_singleton, Nat.zero_add]
    exact ⟨hbegins, hplace⟩
  | @rename lookahead top exposed rest below index target production hreduces htrim hstack hgoto =>
    rw [hstack, beginFrom_stackNodes_cons] at hbegins
    rw [beginFrom_stackNodes_cons]
    exact ⟨hbegins.1, hbegins.2.rename production.head target⟩
  | @reduction lookahead exposed rest children below index target production hreduces htrim hstack
      hlength hgoto =>
    have hplace := h.follows.position_lookahead hreduces.toHandles
    rw [hstack, beginFrom_stackNodes_append, List.reverse_reverse, Nat.zero_add] at hbegins
    rw [beginFrom_stackNodes_cons, Nat.zero_add]
    refine ⟨hbegins.1, hbegins.2.reduction ?_ production.head index target⟩
    rintro rfl
    rw [hstack] at hplace
    exact hplace
  | unknownSymbol => exact absurd rfl hno
  | strayGoto => exact absurd rfl hno
  | unknownProduction => exact absurd rfl hno
  | underflow => exact absurd rfl hno
  | renameLost => exact absurd rfl hno
  | reductionLost => exact absurd rfl hno
  | _ => exact hbegins

/-- Behind any calls of `parse` on a text that report no internal error, every token of the trees on
    the stack begins where the token does that was read behind the leaves to its left, counted
    without noise; so it begins where its first leaf does, if it has any leaves. -/
theorem position_of_node (parser : Parser) (trim : Bool) (text : String)
    (hcalls : Calls grammar ((parser.setTrim trim).openText grammar text) messages current)
    (hno : .internalError ∉ messages) {left right : List Token} {node : Token}
    (hnode : stackNodes current.stack = left ++ node :: right) :
    (∃ reading, node.position = reading.token.position ∧
        (Lexer.significant grammar ((Lexer.openText text).readings grammar
          (messages.count .tokenRead)))[left.countP Token.isLeaf]? = some reading) ∧
      ∀ leaf, node.leaves.head? = some leaf → node.position = leaf.position := by
  have hplaced : Placed grammar trim (.openText text) (messages.count .tokenRead) current := by
    refine hcalls.logged (fun messages =>
      Placed grammar trim (.openText text) (messages.count .tokenRead)) ?_ hno ?_
    · intro messages parser message next h hstep hmessage
      rw [List.count_append]
      exact h.step hstep hmessage
    · exact ⟨⟨rfl, List.cons_ne_nil _ _, .idle rfl rfl rfl⟩, beginFrom_nil _ _⟩
  constructor
  · have hplace := hplaced.begins left node right hnode
    rw [positionsRead, Nat.zero_add, List.getElem?_map, Option.map_eq_some_iff] at hplace
    obtain ⟨reading, hreading, hposition⟩ := hplace
    exact ⟨reading, hposition.symm, hreading⟩
  · intro leaf hleaf
    have hmem : node ∈ current.stack.dropLast.reverse.flatMap Token.nodes := by
      rw [← stackNodes, hnode]
      exact List.mem_append_right _ List.mem_cons_self
    obtain ⟨front, back, hinfix⟩ := Token.isInfix_nodes_all _ hmem
    have hbegins := hplaced.begins
    rw [stackNodes, ← hinfix, beginFrom_append, beginFrom_append] at hbegins
    exact hbegins.1.2.position_eq hleaf

/-- The second empty body comes behind one leaf, and begins at the end of the input, which was the
    lookahead in front of which it was applied. -/
theorem position_of_node_emptyBodiesFile :
    ∃ grammar messages current left node right reading,
      Grammar.ofBytes emptyBodiesFile = .ok grammar ∧
      Calls grammar (((start grammar).setTrim false).openText grammar " b ") messages current ∧
      .internalError ∉ messages ∧ stackNodes current.stack = left ++ node :: right ∧
      left.countP Token.isLeaf = 1 ∧ node.leaves.length = 0 ∧ node.position = ⟨0, 3⟩ ∧
      (Lexer.significant grammar ((Lexer.openText " b ").readings grammar
        (messages.count .tokenRead)))[1]? = some reading ∧
      reading.token.position = ⟨0, 3⟩ := by
  have hpasses : Grammar.passes emptyBodiesFile (fun grammar =>
      (calls grammar 7 (((start grammar).setTrim false).openText grammar " b ")).any fun run =>
        !run.1.contains .internalError &&
          ((stackNodes run.2.stack).take 3).countP Token.isLeaf = 1 &&
            ((stackNodes run.2.stack).drop 3).head?.any fun node =>
              node.leaves.length = 0 && node.position = ⟨0, 3⟩) = true := by
    decide +kernel
  obtain ⟨grammar, hgrammar, htest⟩ := Grammar.exists_of_passes hpasses
  simp only [Bool.and_eq_true, Bool.not_eq_true', Option.any_eq_true, decide_eq_true_eq] at htest
  obtain ⟨⟨messages, current⟩, hrun, ⟨hmessages, hcount⟩, node, hhead, hleaves, hbegin⟩ := htest
  have hno : .internalError ∉ messages := by simpa using hmessages
  have hcalls := calls_iff.2 ⟨7, hrun⟩
  obtain ⟨right, hdrop⟩ := List.head?_eq_some_iff.1 hhead
  have hsplit : stackNodes current.stack =
      (stackNodes current.stack).take 3 ++ node :: right := by
    rw [← hdrop, List.take_append_drop]
  obtain ⟨⟨reading, hposition, hreading⟩, -⟩ :=
    position_of_node (start grammar) false " b " hcalls hno hsplit
  rw [hcount] at hreading
  exact ⟨grammar, messages, current, _, node, right, reading, hgrammar, hcalls, hno, hsplit, hcount,
    hleaves, hbegin, hreading, hposition ▸ hbegin⟩

end Parser

end GoldTables

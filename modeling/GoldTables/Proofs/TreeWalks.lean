import GoldTables.Tree.Walk

/-!
# The tokens of a tree

`walk` carries along the depth of every token and what comes behind the tree.
Without the depths it lists the tokens of a tree: the root, and then the tokens
of its children.

Results:
* `walk_eq`: the walk visits the root, and then walks over its children, one level deeper.
* `map_snd_walk`: the walk lists the tokens of the tree.
* `nodes_reduction`, `leaves_reduction`: the tokens and the leaves of a reduction.
-/

namespace GoldTables

mutual

/-- The tokens of a tree, each in front of the ones below it. -/
def Token.nodes (token : Token) : List Token :=
  match token with
  | ⟨symbol, payload, position, state⟩ => ⟨symbol, payload, position, state⟩ :: payload.nodes

/-- The tokens of the trees that a payload holds. -/
def Payload.nodes (payload : Payload) : List Token :=
  match payload with
  | .reduction _ children => Token.nodesAll children
  | .text _ | .value _ => []

/-- The tokens of trees, from left to right. -/
def Token.nodesAll : List Token → List Token
  | [] => []
  | token :: tokens => token.nodes ++ Token.nodesAll tokens

end

mutual

theorem Token.map_snd_walkOnto (depth : Nat) (rest : List (Nat × Token)) (token : Token) :
    (token.walkOnto depth rest).map Prod.snd = token.nodes ++ rest.map Prod.snd := by
  match token with
  | ⟨symbol, payload, position, state⟩ =>
    rw [Token.walkOnto, Token.nodes, List.map_cons, Payload.map_snd_walkOnto, List.cons_append]

theorem Payload.map_snd_walkOnto (depth : Nat) (rest : List (Nat × Token)) (payload : Payload) :
    (payload.walkOnto depth rest).map Prod.snd = payload.nodes ++ rest.map Prod.snd := by
  match payload with
  | .reduction index children =>
    unfold Payload.walkOnto Payload.nodes
    exact Token.map_snd_walkAllOnto depth rest children
  | .text text =>
    unfold Payload.walkOnto Payload.nodes
    rfl
  | .value value =>
    unfold Payload.walkOnto Payload.nodes
    rfl

theorem Token.map_snd_walkAllOnto (depth : Nat) (rest : List (Nat × Token))
    (tokens : List Token) :
    (Token.walkAllOnto depth rest tokens).map Prod.snd =
      Token.nodesAll tokens ++ rest.map Prod.snd := by
  match tokens with
  | [] =>
    rw [Token.walkAllOnto, Token.nodesAll, List.nil_append]
  | token :: tokens =>
    rw [Token.walkAllOnto, Token.nodesAll, Token.map_snd_walkOnto, Token.map_snd_walkAllOnto,
      List.append_assoc]

end

mutual

/-- A walk that starts deeper visits the same tokens, all of them deeper by as much. -/
theorem Token.walkOnto_add (depth more : Nat) (rest : List (Nat × Token)) (token : Token) :
    token.walkOnto (depth + more) rest =
      (token.walkOnto depth []).map (fun visit => (visit.1 + more, visit.2)) ++ rest := by
  match token with
  | ⟨symbol, payload, position, state⟩ =>
    rw [Token.walkOnto, Token.walkOnto, Nat.add_right_comm, Payload.walkOnto_add, List.map_cons,
      List.cons_append]

theorem Payload.walkOnto_add (depth more : Nat) (rest : List (Nat × Token)) (payload : Payload) :
    payload.walkOnto (depth + more) rest =
      (payload.walkOnto depth []).map (fun visit => (visit.1 + more, visit.2)) ++ rest := by
  match payload with
  | .reduction index children =>
    unfold Payload.walkOnto
    exact Token.walkAllOnto_add depth more rest children
  | .text text =>
    unfold Payload.walkOnto
    rfl
  | .value value =>
    unfold Payload.walkOnto
    rfl

theorem Token.walkAllOnto_add (depth more : Nat) (rest : List (Nat × Token))
    (tokens : List Token) :
    Token.walkAllOnto (depth + more) rest tokens =
      (Token.walkAllOnto depth [] tokens).map (fun visit => (visit.1 + more, visit.2)) ++ rest := by
  match tokens with
  | [] =>
    rw [Token.walkAllOnto, Token.walkAllOnto, List.map_nil, List.nil_append]
  | token :: tokens =>
    have hfront : token.walkOnto depth (Token.walkAllOnto depth [] tokens) =
        token.walkOnto depth [] ++ Token.walkAllOnto depth [] tokens := by
      simpa using Token.walkOnto_add depth 0 (Token.walkAllOnto depth [] tokens) token
    rw [Token.walkAllOnto, Token.walkAllOnto, Token.walkOnto_add, Token.walkAllOnto_add, hfront,
      List.map_append, List.append_assoc]

end

namespace Token

variable {symbol state : UInt16} {position : Position}

theorem walkAllOnto_eq_flatMap (tokens : List Token) :
    walkAllOnto 1 [] tokens =
      tokens.flatMap fun token => token.walk.map fun visit => (visit.1 + 1, visit.2) := by
  induction tokens with
  | nil => rw [walkAllOnto, List.flatMap_nil]
  | cons token tokens ih =>
    rw [walkAllOnto, List.flatMap_cons, ih, ← Nat.zero_add 1, walkOnto_add, walk]

/-- A walk visits the root, and then walks over its children, one level deeper. -/
theorem walk_eq (root : Token) :
    root.walk = (0, root) ::
      root.children.flatMap fun child => child.walk.map fun visit => (visit.1 + 1, visit.2) := by
  obtain ⟨symbol, payload, position, state⟩ := root
  rw [walk, walkOnto]
  refine congrArg _ ?_
  cases payload with
  | reduction index children =>
    unfold Payload.walkOnto
    exact walkAllOnto_eq_flatMap children
  | text text =>
    unfold Payload.walkOnto
    rfl
  | value value =>
    unfold Payload.walkOnto
    rfl

/-- The walk lists the tokens of the tree. -/
theorem map_snd_walk (root : Token) : root.walk.map Prod.snd = root.nodes := by
  rw [walk, map_snd_walkOnto, List.map_nil, List.append_nil]

theorem leaves_eq_filter (root : Token) : root.leaves = root.nodes.filter isLeaf := by
  rw [leaves, map_snd_walk]

theorem nodesAll_eq_flatMap (tokens : List Token) : nodesAll tokens = tokens.flatMap nodes := by
  induction tokens with
  | nil => rw [nodesAll, List.flatMap_nil]
  | cons token tokens ih => rw [nodesAll, ih, List.flatMap_cons]

theorem nodes_reduction (index : UInt16) (children : List Token) :
    nodes ⟨symbol, .reduction index children, position, state⟩ =
      ⟨symbol, .reduction index children, position, state⟩ :: children.flatMap nodes := by
  rw [nodes, Payload.nodes, nodesAll_eq_flatMap]

theorem nodes_of_isLeaf {token : Token} (h : token.isLeaf = true) : token.nodes = [token] := by
  obtain ⟨symbol, payload, position, state⟩ := token
  cases payload with
  | reduction index children => cases h
  | text text => rw [nodes, Payload.nodes]
  | value value => rw [nodes, Payload.nodes]

theorem leaves_reduction (index : UInt16) (children : List Token) :
    leaves ⟨symbol, .reduction index children, position, state⟩ = children.flatMap leaves := by
  rw [leaves_eq_filter, nodes_reduction, List.filter_cons_of_neg (by nofun), List.filter_flatMap]
  exact congrArg children.flatMap (funext fun child => (leaves_eq_filter child).symm)

theorem leaves_of_isLeaf {token : Token} (h : token.isLeaf = true) : token.leaves = [token] := by
  rw [leaves_eq_filter, nodes_of_isLeaf h, List.filter_cons_of_pos h, List.filter_nil]

end Token

end GoldTables

import GoldTables.Proofs.TreeWalks
import GoldTables.Grammar.Basic
import Mathlib.Logic.Relation

/-!
# Derivation trees

A token that a parser built carries a production and the tokens of its body.
A tree of tokens is a derivation tree if, at any depth, the children have the
symbols of the body of the production and the token has the symbol of its head.

Results:
* `Token.derives_leaves`: the symbols of the leaves are derived from the symbol of the root.
-/

namespace GoldTables

/-! ## Derivations -/

namespace Tables

variable {tables : Tables} {before after : List UInt16}

/-- A head is replaced by the body of its production. -/
def Rewrites (tables : Tables) (before after : List UInt16) : Prop :=
  ∃ index production front back, tables.production? index = some production ∧
    before = front ++ production.head :: back ∧ after = front ++ production.body ++ back

/-- Any number of replacements lead from symbols to others. -/
def Derives (tables : Tables) : List UInt16 → List UInt16 → Prop :=
  Relation.ReflTransGen tables.Rewrites

theorem Rewrites.append (h : tables.Rewrites before after) (left right : List UInt16) :
    tables.Rewrites (left ++ before ++ right) (left ++ after ++ right) := by
  obtain ⟨index, production, front, back, hproduction, rfl, rfl⟩ := h
  refine ⟨index, production, left ++ front, back ++ right, hproduction, ?_, ?_⟩
  · simp only [List.append_assoc, List.cons_append]
  · simp only [List.append_assoc]

/-- What is derived from symbols is derived from them between others. -/
theorem Derives.append (h : tables.Derives before after) (left right : List UInt16) :
    tables.Derives (left ++ before ++ right) (left ++ after ++ right) := by
  induction h with
  | refl => exact Relation.ReflTransGen.refl
  | tail _ hlast ih => exact ih.tail (hlast.append left right)

theorem derives_of_production {index : UInt16} {production : Production}
    (h : tables.production? index = some production) :
    tables.Derives [production.head] production.body :=
  Relation.ReflTransGen.single ⟨index, production, [], [], h, rfl, by simp⟩

theorem Derives.append_both {others derived : List UInt16} (h : tables.Derives before after)
    (hothers : tables.Derives others derived) :
    tables.Derives (before ++ others) (after ++ derived) := by
  have hfirst := h.append [] others
  have hsecond := hothers.append after []
  rw [List.nil_append, List.nil_append] at hfirst
  rw [List.append_nil, List.append_nil] at hsecond
  exact hfirst.trans hsecond

end Tables

/-! ## Trees -/

namespace Token

variable {tables : Tables}

/-- The children of the token have the symbols of the body of its production. -/
def HasBody (tables : Tables) (token : Token) : Prop :=
  ∀ index children, token.payload.reduction? = some (index, children) →
    ∃ production, tables.production? index = some production ∧
      children.map symbol = production.body

/-- The token has the symbol of the head of its production. -/
def HasHead (tables : Tables) (token : Token) : Prop :=
  ∀ index children, token.payload.reduction? = some (index, children) →
    ∃ production, tables.production? index = some production ∧ token.symbol = production.head

/-- Every token of the tree has the symbols of a body below it, and the symbol of the head if
    the parser renames no tokens. -/
def Fits (tables : Tables) (trim : Bool) (root : Token) : Prop :=
  ∀ node ∈ root.nodes, node.HasBody tables ∧ (trim = false → node.HasHead tables)

theorem fits_of_isLeaf {token : Token} (h : token.isLeaf = true) (trim : Bool) :
    token.Fits tables trim := by
  have hnone : token.payload.reduction? = none := Option.isNone_iff_eq_none.1 h
  intro node hnode
  rw [nodes_of_isLeaf h, List.mem_singleton] at hnode
  subst hnode
  constructor
  · intro index children hreduction
    rw [hnone] at hreduction
    cases hreduction
  · intro _ index children hreduction
    rw [hnone] at hreduction
    cases hreduction

theorem fits_reduction {index state : UInt16} {children : List Token} {position : Position}
    {production : Production} {trim : Bool}
    (hproduction : tables.production? index = some production)
    (hbody : children.map symbol = production.body)
    (hchildren : ∀ child ∈ children, child.Fits tables trim) :
    Fits tables trim ⟨production.head, .reduction index children, position, state⟩ := by
  intro node hnode
  rw [nodes_reduction, List.mem_cons, List.mem_flatMap] at hnode
  rcases hnode with rfl | ⟨child, hchild, hnode⟩
  · constructor
    · rintro _ _ ⟨⟩
      exact ⟨production, hproduction, hbody⟩
    · rintro _ _ _ ⟨⟩
      exact ⟨production, hproduction, rfl⟩
  · exact hchildren child hchild node hnode

theorem self_mem_nodes (token : Token) : token ∈ token.nodes := by
  obtain ⟨symbol, payload, position, state⟩ := token
  rw [nodes]
  exact List.mem_cons_self

/-- A tree with a root that was renamed still fits if symbols do not matter. -/
theorem Fits.rename {token : Token} (h : token.Fits tables true) (head state : UInt16) :
    Fits tables true { token with symbol := head, state := state } := by
  obtain ⟨symbol, payload, position, before⟩ := token
  intro node hnode
  rw [nodes, List.mem_cons] at hnode
  rcases hnode with rfl | hnode
  · exact ⟨(h _ (self_mem_nodes _)).1, nofun⟩
  · exact h node (by rw [nodes]; exact List.mem_cons_of_mem _ hnode)

/-- A leaf is derived from its own symbol. -/
theorem derives_leaf {token : Token} (h : token.isLeaf = true) :
    tables.Derives [token.symbol] (token.leaves.map symbol) := by
  rw [leaves_of_isLeaf h]
  exact Relation.ReflTransGen.refl

mutual

/-- The symbols of the leaves of a derivation tree are derived from the symbol of its root. -/
theorem derives_leaves (root : Token) (hbody : ∀ node ∈ root.nodes, node.HasBody tables)
    (hhead : ∀ node ∈ root.nodes, node.HasHead tables) :
    tables.Derives [root.symbol] (root.leaves.map symbol) := by
  match root with
  | ⟨symbol, .text text, position, state⟩ => exact derives_leaf rfl
  | ⟨symbol, .value value, position, state⟩ => exact derives_leaf rfl
  | ⟨symbol, .reduction index children, position, state⟩ =>
    rw [nodes_reduction] at hbody hhead
    obtain ⟨production, hproduction, hchildren⟩ := hbody _ List.mem_cons_self index children rfl
    obtain ⟨same, hsame, hsymbol⟩ := hhead _ List.mem_cons_self index children rfl
    rw [hproduction] at hsame
    cases hsame
    have hleaves := derives_leaves_all children
      (fun node hnode => hbody node (List.mem_cons_of_mem _ hnode))
      (fun node hnode => hhead node (List.mem_cons_of_mem _ hnode))
    rw [hchildren] at hleaves
    rw [leaves_reduction]
    show tables.Derives [symbol] _
    rw [show symbol = production.head from hsymbol]
    exact (Tables.derives_of_production hproduction).trans hleaves

/-- The symbols of the leaves of derivation trees are derived from the symbols of their roots. -/
theorem derives_leaves_all (tokens : List Token)
    (hbody : ∀ node ∈ tokens.flatMap nodes, node.HasBody tables)
    (hhead : ∀ node ∈ tokens.flatMap nodes, node.HasHead tables) :
    tables.Derives (tokens.map symbol) ((tokens.flatMap leaves).map symbol) := by
  match tokens with
  | [] => exact Relation.ReflTransGen.refl
  | token :: tokens =>
    rw [List.flatMap_cons] at hbody hhead
    have hfirst := derives_leaves token
      (fun node hnode => hbody node (List.mem_append_left _ hnode))
      (fun node hnode => hhead node (List.mem_append_left _ hnode))
    have hrest := derives_leaves_all tokens
      (fun node hnode => hbody node (List.mem_append_right _ hnode))
      (fun node hnode => hhead node (List.mem_append_right _ hnode))
    rw [List.flatMap_cons, List.map_append]
    exact hfirst.append_both hrest

end

end Token

end GoldTables

import GoldTables.Token

/-!
# Walking over trees

`walk` visits a token and every token below it, each before the ones below it
and all from left to right, with its depth. The leaves are the visited tokens
that carry a text or a value. `reductions` lists the productions of a tree in
the order in which a parser applies them: from left to right, and each behind
those below it.
-/

namespace GoldTables

mutual

/-- The tokens of a tree whose root has a depth, in front of others. -/
def Token.walkOnto (depth : Nat) (rest : List (Nat × Token)) (token : Token) :
    List (Nat × Token) :=
  match token with
  | ⟨symbol, payload, position, state⟩ =>
    (depth, ⟨symbol, payload, position, state⟩) :: payload.walkOnto (depth + 1) rest

/-- The tokens below a token whose children have a depth, in front of others. -/
def Payload.walkOnto (depth : Nat) (rest : List (Nat × Token)) (payload : Payload) :
    List (Nat × Token) :=
  match payload with
  | .reduction _ children => Token.walkAllOnto depth rest children
  | .text _ | .value _ => rest

/-- The tokens of trees whose roots have a depth, in front of others. -/
def Token.walkAllOnto (depth : Nat) (rest : List (Nat × Token)) :
    List Token → List (Nat × Token)
  | [] => rest
  | token :: tokens => token.walkOnto depth (Token.walkAllOnto depth rest tokens)

end

namespace Token

/-- The tokens of a tree, each with its depth, in the order in which `walk` visits them. -/
def walk (root : Token) : List (Nat × Token) := root.walkOnto 0 []

/-- Whether a token was not built by a production, or no longer shows it. -/
def isLeaf (token : Token) : Bool := token.payload.reduction?.isNone

/-- The leaves of a tree, from left to right (`leaves`). -/
def leaves (root : Token) : List Token := (root.walk.map Prod.snd).filter isLeaf

end Token

mutual

/-- The productions of a tree, each behind those below it. -/
def Token.reductions (token : Token) : List UInt16 :=
  match token with
  | ⟨_, payload, _, _⟩ => payload.reductions

/-- The productions of what a token carries. -/
def Payload.reductions (payload : Payload) : List UInt16 :=
  match payload with
  | .reduction production children => Token.reductionsAll children ++ [production]
  | .text _ | .value _ => []

/-- The productions of trees, from left to right. -/
def Token.reductionsAll : List Token → List UInt16
  | [] => []
  | token :: tokens => token.reductions ++ Token.reductionsAll tokens

end

end GoldTables

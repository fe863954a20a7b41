import GoldTables.Parser.Run

/-!
# Evaluation while parsing

A consumer that replaces every reduction by a value as soon as it is built
computes the value of the whole input without ever holding its tree.
-/

namespace GoldTables

namespace Parser

/-- What a consumer that evaluates every reduction sees: the production, the value that was
    computed, and whether it was taken; or a final message. -/
inductive Evaluated where
  | reduction (production : UInt16) (value : Json) (taken : Bool)
  | final (message : Message)

/-- A message that the parser has reported, and what the consumer saw behind it. -/
structure Noted where
  message : Message
  evaluated : Option Evaluated

/-- Puts the value of the reduction on top of the stack in its place, if there is one
    (`current_reduction`, `set_current_value`). -/
def evaluateCurrent (value : UInt16 → List Token → Json) (parser : Parser) :
    Option Evaluated × Parser :=
  match parser.currentReduction? with
  | some (production, children) =>
    let result := value production children
    let (taken, parser) := parser.setCurrentValue result
    (some (.reduction production result taken), parser)
  | none => (none, parser)

/-- What the consumer does behind a message: it evaluates a new reduction. -/
def respond (value : UInt16 → List Token → Json) (message : Message) (parser : Parser) :
    Option Evaluated × Parser :=
  if message = .reduction then parser.evaluateCurrent value
  else (if message.isFinal then some (.final message) else none, parser)

/-- Drives the parser up to the first final message, at most for a number of messages, and responds
    to every message. What happened is put behind the reversed list `done`. -/
def driveNoting (grammar : Grammar) (value : UInt16 → List Token → Json) :
    Nat → List Noted → Parser → Option (List Noted × Parser)
  | 0, done, parser => some (done.reverse, parser)
  | n + 1, done, parser => do
    let (message, parser) ← parser.parse grammar
    let (evaluated, parser) := parser.respond value message
    let done := ⟨message, evaluated⟩ :: done
    if message.isFinal then return (done.reverse, parser)
    else driveNoting grammar value n done parser

/-- Drives the parser as `driveNoting` does: what was evaluated, and the final message. -/
def evaluate (grammar : Grammar) (value : UInt16 → List Token → Json) (n : Nat)
    (done : List Noted) (parser : Parser) : Option (List Evaluated × Parser) :=
  (driveNoting grammar value n done parser).map fun (noted, last) =>
    (noted.filterMap Noted.evaluated, last)

/-- The number of texts among children, where a child that is a natural number counts as that
    many. -/
def tally (_production : UInt16) (children : List Token) : Json :=
  .int <| children.foldl
    (fun total child =>
      match child.payload with
      | .text _ => total + 1
      | .value (.int n) => total + max n 0
      | _ => total)
    0

end Parser

end GoldTables

import GoldTables.Lexer.Groups

/-!
# Parsers

A parser keeps a stack of tokens over its lexer. Each token on the stack
carries the state that the parser was in behind it, and below them all lies a
token that carries the initial state. Tokens that were read, or handed in,
wait in a queue; the first of them is the lookahead.

Between two steps the consumer may look at the lookahead and at the token on
top of the stack, and may replace what they carry.
-/

namespace GoldTables

/-- What a parser reports (`ParseMessage`). -/
inductive Message where
  /-- A token was read from the text, and waits to be parsed. -/
  | tokenRead
  /-- A production was applied; its token is on top of the stack. -/
  | reduction
  /-- The input is a sentence of the grammar. -/
  | accept
  /-- There is no input. -/
  | notLoaded
  /-- The lookahead is text that no terminal matches. -/
  | lexicalError
  /-- The parser cannot go on with the lookahead. -/
  | syntaxError
  /-- The input ended inside a group. -/
  | groupError
  /-- The tables contradict each other. -/
  | internalError
  deriving DecidableEq

/-- Whether parsing does not go on behind the message (`is_final`). -/
def Message.isFinal : Message → Bool
  | .tokenRead | .reduction => false
  | _ => true

/-- A parser in the middle of its work. -/
structure Parser where
  lexer : Lexer
  /-- Whether an input was opened. -/
  opened : Bool
  lrState : UInt16
  /-- The tokens that were parsed, the last one first. -/
  stack : List Token
  /-- The tokens that wait to be parsed, the lookahead first. -/
  input : List Token
  /-- The symbols that could have stood where the last unexpected token was found. -/
  expected : List UInt16
  /-- Where the parser last looked. -/
  position : Position
  /-- Whether chain productions are left out of the trees. -/
  trim : Bool

namespace Parser

/-- The token at the bottom of every stack, which `restart` puts there. -/
def bottom (grammar : Grammar) : Token :=
  ⟨grammar.endSymbol, .text "", .start, grammar.lrInitial⟩

/-- Drops the input and everything that was parsed (`restart`). -/
def restart (parser : Parser) (grammar : Grammar) : Parser :=
  { parser with
    lexer := parser.lexer.reset
    opened := false
    lrState := grammar.lrInitial
    stack := [bottom grammar]
    input := []
    expected := []
    position := .start }

/-- A parser without an input (`Parser.new`). -/
def start (grammar : Grammar) : Parser :=
  ⟨.empty, false, grammar.lrInitial, [bottom grammar], [], [], .start, false⟩

/-- Starts on a text (`Parser.open`). -/
def openText (parser : Parser) (grammar : Grammar) (text : String) : Parser :=
  { parser.restart grammar with lexer := .openText text, opened := true }

/-- Turns the trimming of chain productions on or off (`set_trim_reductions`). -/
def setTrim (parser : Parser) (trim : Bool) : Parser := { parser with trim }

/-! ## The lookahead -/

/-- The lookahead: the token just read, or the one that caused an error (`current_token`). -/
def currentToken? (parser : Parser) : Option Token := parser.input.head?

/-- Changes the lookahead, if there is one (`current_token_mut`). -/
def modifyCurrentToken (parser : Parser) (change : Token → Token) : Parser :=
  match parser.input with
  | [] => parser
  | token :: rest => { parser with input := change token :: rest }

/-- Removes the lookahead (`discard_current_token`). -/
def discardCurrentToken (parser : Parser) : Option Token × Parser :=
  (parser.input.head?, { parser with input := parser.input.tail })

/-- Puts a token behind all that wait (`enqueue_input`). -/
def enqueue (parser : Parser) (token : Token) : Parser :=
  { parser with input := parser.input ++ [token] }

/-- Makes a token the lookahead (`push_input`). -/
def push (parser : Parser) (token : Token) : Parser :=
  { parser with input := token :: parser.input }

/-! ## The top of the stack -/

/-- How many tokens were parsed and are on the stack (`stack_depth`). -/
def stackDepth (parser : Parser) : Nat := parser.stack.length - 1

/-- The production and the children of the token on top of the stack (`current_reduction`). -/
def currentReduction? (parser : Parser) : Option (UInt16 × List Token) :=
  parser.stack.head?.bind fun top => top.payload.reduction?

/-- Puts a value in place of what the token on top of the stack carries; `false` if there is no
    parsed token (`set_current_value`). -/
def setCurrentValue (parser : Parser) (value : Json) : Bool × Parser :=
  match parser.stack with
  | top :: below :: rest =>
    (true, { parser with stack := { top with payload := .value value } :: below :: rest })
  | _ => (false, parser)

/-- Puts something else in place of what a child of the current reduction carries, as
    `current_reduction_mut` lets a consumer do; `false` if there is no such child. -/
def setChild (parser : Parser) (index : Nat) (payload : Payload) : Bool × Parser :=
  match parser.stack with
  | ⟨symbol, .reduction production children, position, state⟩ :: rest =>
    if index < children.length then
      let children := children.modify index fun child => { child with payload }
      let top : Token := ⟨symbol, .reduction production children, position, state⟩
      (true, { parser with stack := top :: rest })
    else (false, parser)
  | _ => (false, parser)

end Parser

end GoldTables

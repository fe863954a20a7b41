import GoldTables.Grammar.Text
import GoldTables.Parser.Error
import GoldTables.Parser.Step

/-!
# Running the parser

`parse` takes steps up to the next message, and `parseTree` up to the end of
the parse: it answers with the tree of the input, or says why there is none.

Silent steps drop, shift or rename a token. Dropping and shifting use up the
tokens that wait, and renaming goes from state to state under one lookahead,
so that a run of renamings longer than the table of states goes round in a
circle. `parse` has no answer then, and it has none where the lexer never comes
to a token.
-/

namespace GoldTables

namespace Parser

/-! ## Up to the next message -/

/-- Takes steps up to the next message, as the loop of `parse` does, at most a number of them. -/
def parseWithin (grammar : Grammar) : Nat → Parser → Option (Message × Parser)
  | 0, _ => none
  | n + 1, parser =>
    match parser.step grammar with
    | (some message, parser) => some (message, parser)
    | (none, parser) => parseWithin grammar n parser

/-- A number of steps within which there is a message, if there ever is one. -/
def stepBound (parser : Parser) (grammar : Grammar) : Nat :=
  (parser.input.length + 1) * (grammar.lrStates.size + 2)

/-- Goes on to the next message (`parse`); `none` if there never is one. -/
def parse (parser : Parser) (grammar : Grammar) : Option (Message × Parser) :=
  parseWithin grammar (parser.stepBound grammar) parser

/-! ## Up to the end of the parse -/

/-- Why `parse_tree` has no tree, after a final message other than `accept`. -/
def errorOf (parser : Parser) (grammar : Grammar) : Message → ParseError
  | .notLoaded => .notLoaded
  | .lexicalError =>
    let text := parser.currentToken?.bind fun token => token.payload.text?
    .lexical (text.getD "") parser.position
  | .syntaxError =>
    let found := parser.currentToken?.map fun token => grammar.symbolLabel token.symbol
    let expected := (parser.expected.filterMap grammar.symbol?).map Symbol.text
    .unexpected (found.getD "") expected parser.position
  | .groupError => .group parser.position
  | _ => .internal parser.position

/-- The answer of `parse_tree` to a final message, and the parser behind it. An accepted input
    leaves the parser without an input. -/
def answer (parser : Parser) (grammar : Grammar) (message : Message) :
    Except ParseError Token × Parser :=
  if message = .accept then
    match parser.stack with
    | root :: _ => (.ok root, parser.restart grammar)
    | [] => (.error (.internal parser.position), parser.restart grammar)
  else (.error (parser.errorOf grammar message), parser)

/-- Parses to the end (`parse_tree`), with at most a number of messages; `none` if they do not
    suffice. -/
def parseTree (grammar : Grammar) : Nat → Parser → Option (Except ParseError Token × Parser)
  | 0, _ => none
  | n + 1, parser => do
    let (message, parser) ← parser.parse grammar
    if message.isFinal then return parser.answer grammar message
    else parseTree grammar n parser

/-- The messages of calls of `parse` up to the first final one, at most a number of them, behind the
    reversed list `done`. -/
def drive (grammar : Grammar) : Nat → List Message → Parser → Option (List Message × Parser)
  | 0, done, parser => some (done.reverse, parser)
  | n + 1, done, parser => do
    let (message, parser) ← parser.parse grammar
    if message.isFinal then return ((message :: done).reverse, parser)
    else drive grammar n (message :: done) parser

end Parser

end GoldTables

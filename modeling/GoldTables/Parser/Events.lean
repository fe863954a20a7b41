import GoldTables.Lexer.Events
import GoldTables.Parser.Run

/-!
# What a parser notices

Every token that is read, every action that is taken, and the reason why a
parse ends without a tree.
-/

namespace GoldTables

namespace Parser

/-! ## Steps -/

/-- A reduction that succeeds is worth noticing. -/
def reduceEvents (parser : Parser) (grammar : Grammar) (production : Production) (index : UInt16)
    (lookahead : Token) : List Event :=
  match parser.reduce grammar production index lookahead with
  | (some .internalError, _) => []
  | (message, next) =>
    let trimmed := if message.isNone then " (trimmed)" else ""
    let text := grammar.productionText production
    [⟨.trace, s!"state {parser.lrState}: reduce {text} -> {next.lrState}{trimmed}"⟩]

/-- What is worth noticing when a lookahead is handled as the table says. -/
def actEvents (parser : Parser) (grammar : Grammar) (lookahead : Token) : List Event :=
  let name := grammar.symbolLabel lookahead.symbol
  match grammar.action? parser.lrState lookahead.symbol with
  | none | some .error => [⟨.trace, s!"state {parser.lrState}: no action on {name}"⟩]
  | some .accept => [⟨.trace, s!"state {parser.lrState}: accept"⟩]
  | some (.shift target) => [⟨.trace, s!"state {parser.lrState}: shift {name} -> {target}"⟩]
  | some (.reduce index) =>
    match grammar.production? index with
    | some production => parser.reduceEvents grammar production index lookahead
    | none => []
  | some (.goto _) => []

/-- A token that was read, in words. -/
def readText (grammar : Grammar) (token : Token) : String :=
  let text :=
    match token.payload.text? with
    | some text => "Some(" ++ Text.quoted text ++ ")"
    | none => "None"
  s!"read {grammar.symbolLabel token.symbol} {text} at {token.position.text}"

/-- What is worth noticing in a step. -/
def stepEvents (parser : Parser) (grammar : Grammar) : List Event :=
  if !parser.opened then []
  else
    match parser.input with
    | [] =>
      parser.lexer.nextTokenEvents grammar ++
        match parser.lexer.nextToken? grammar with
        | some (token, _) => [⟨.trace, readText grammar token⟩]
        | none => []
    | lookahead :: _ =>
      if parser.lexer.inGroup then []
      else
        match grammar.kind? lookahead.symbol with
        | none | some .noise | some .error => []
        | some _ => parser.actEvents grammar lookahead

/-! ## Runs -/

/-- What is worth noticing up to the next message, in at most a number of steps. -/
def parseWithinEvents (grammar : Grammar) : Nat → Parser → List Event
  | 0, _ => []
  | n + 1, parser =>
    parser.stepEvents grammar ++
      match parser.step grammar with
      | (some _, _) => []
      | (none, parser) => parseWithinEvents grammar n parser

/-- What is worth noticing up to the next message. -/
def parseEvents (parser : Parser) (grammar : Grammar) : List Event :=
  parseWithinEvents grammar (parser.stepBound grammar) parser

/-- What is worth noticing up to the first final message, with at most a number of messages. -/
def driveEvents (grammar : Grammar) : Nat → Parser → List Event
  | 0, _ => []
  | n + 1, parser =>
    parser.parseEvents grammar ++
      match parser.parse grammar with
      | none => []
      | some (message, parser) =>
        if message.isFinal then [] else driveEvents grammar n parser

/-- What is worth noticing up to the end of the parse, with at most a number of messages. -/
def parseTreeEvents (grammar : Grammar) (limit : Nat) (parser : Parser) : List Event :=
  driveEvents grammar limit parser ++
    match parseTree grammar limit parser with
    | some (.error fault, _) => [⟨.debug, s!"parse halted: {fault.message}"⟩]
    | _ => []

end Parser

end GoldTables

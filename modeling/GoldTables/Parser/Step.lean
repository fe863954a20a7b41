import GoldTables.Parser.Basic

/-!
# Steps of the parser

A step reads a token if none waits, or handles the lookahead: noise is
dropped, and any other token is shifted, makes the parser reduce, or ends the
parse, as the table of the current state says. A step either reports a
message or is silent. Where the lexer never comes to a token, a step leads
nowhere.

A reduction takes the tokens of the body from the stack, and its own token
enters the state that the exposed state goes to on the head. If it goes
nowhere the tables contradict each other, and the tokens of the body are lost.
-/

namespace GoldTables

/-- The symbols that `parse_lalr` reports as expected in a state: those with an entry of any kind
    that are expectable. -/
def Tables.expectable (tables : Tables) (state : UInt16) : List UInt16 :=
  match tables.lrState? state with
  | some row =>
    (row.actions.toList.map LrAction.symbol).filter fun symbol =>
      (tables.kind? symbol).any SymbolKind.isExpectable
  | none => []

namespace Parser

/-- Puts the token of a production's head on the stack `below`, in the state that the exposed
    state goes to on the head, as `reduce` does in the end. -/
def enter (parser : Parser) (grammar : Grammar) (head : Token) (below : List Token)
    (message : Option Message) : Option Message × Parser :=
  let target? := below.head?.bind fun exposed => grammar.action? exposed.state head.symbol
  match target? with
  | some (.goto target) =>
    (message,
      { parser with lrState := target, stack := { head with state := target } :: below })
  | _ => (some .internalError, { parser with stack := below })

/-- Applies a production (`reduce`). The token of the head begins where its first child does, or at
    the lookahead if it has none. -/
def reduce (parser : Parser) (grammar : Grammar) (production : Production) (index : UInt16)
    (lookahead : Token) : Option Message × Parser :=
  let size := production.body.length
  match parser.stack, parser.stack.drop size with
  | top :: rest, exposed :: below =>
    if parser.trim && grammar.isChain production then
      parser.enter grammar { top with symbol := production.head } rest none
    else
      let children := (parser.stack.take size).reverse
      let position := (children.head?.map Token.position).getD lookahead.position
      parser.enter grammar ⟨production.head, .reduction index children, position, 0⟩
        (exposed :: below) (some .reduction)
  | _, _ => (some .internalError, parser)

/-- Handles a lookahead that is not noise as the table says (`parse_lalr`). -/
def act (parser : Parser) (grammar : Grammar) (lookahead : Token) (rest : List Token) :
    Option Message × Parser :=
  match grammar.action? parser.lrState lookahead.symbol with
  | none | some .error =>
    (some .syntaxError, { parser with expected := grammar.expectable parser.lrState })
  | some .accept => (some .accept, parser)
  | some (.shift target) =>
    (none,
      { parser with
        input := rest
        lrState := target
        stack := { lookahead with state := target } :: parser.stack })
  | some (.reduce index) =>
    match grammar.production? index with
    | some production => parser.reduce grammar production index lookahead
    | none => (some .internalError, parser)
  | some (.goto _) => (some .internalError, parser)

/-- One step: a turn of the loop of `parse`. -/
def step (parser : Parser) (grammar : Grammar) : Option Message × Parser :=
  if !parser.opened then (some .notLoaded, parser)
  else
    match parser.input with
    | [] =>
      match parser.lexer.nextToken? grammar with
      | some (token, lexer) => (some .tokenRead, { parser with lexer, input := [token] })
      | none => (none, parser)
    | lookahead :: rest =>
      let parser := { parser with position := lookahead.position }
      if parser.lexer.inGroup then (some .groupError, parser)
      else
        match grammar.kind? lookahead.symbol with
        | none => (some .internalError, parser)
        | some .noise => (none, { parser with input := rest })
        | some .error => (some .lexicalError, parser)
        | some _ => parser.act grammar lookahead rest

end Parser

end GoldTables

import GoldTables.Lexer.Automaton

/-!
# Lexical groups

Over the automaton lies a layer that gathers a stretch of text between two
marks, such as a comment, into one token. `groupStep` handles one stretch of
the automaton: it opens a group, appends to the innermost open group, closes
it, or yields a token. `nextToken?` takes such steps until there is a token.

Before the end of the text every step without a token leaves less to do. At
the end there is nothing to consume, and it is the end symbol alone that
decides. If it stands for the end of the input, there is a token now. In tables
too large for their indices it may be a symbol of any other kind, which opens
groups or is gathered: then the steps may go on for ever, and there is no next
token.
-/

namespace GoldTables

namespace Lexer

/-- What a step leads to. -/
inductive GroupStep where
  /-- There is no token yet. -/
  | again (lexer : Lexer)
  | token (token : Token) (lexer : Lexer)

/-- The group that a symbol may open, the first question in every turn of the loop of `next_token`.
    At the outermost level every group may be opened, and inside a group those that it lists. -/
def opens? (lexer : Lexer) (grammar : Grammar) (symbol : UInt16) : Option UInt16 :=
  match grammar.symbol? symbol with
  | some { kind := .groupStart, group := some group, .. } =>
    match lexer.groups with
    | [] => some group
    | top :: _ =>
      if ((grammar.group? top.group).map Group.nesting).any fun nested => nested.contains group
      then some group else none
  | _ => none

/-- The token of a stretch of text at the lexer's position. -/
def tokenOf (lexer : Lexer) (stretch : Stretch) : Token :=
  .ofText stretch.symbol stretch.text lexer.position

/-- Opens a group with a stretch of text as its opening mark. -/
def openGroup (lexer : Lexer) (group : UInt16) (stretch : Stretch) : Lexer :=
  let opened : OpenGroup := ⟨group, String.ofList stretch.text, lexer.position⟩
  { lexer.consume stretch.text.length with groups := opened :: lexer.groups }

/-- Appends a stretch of text to the innermost open group `top`, or only its first character. -/
def gather (lexer : Lexer) (advance : AdvanceMode) (stretch : Stretch) (top : OpenGroup)
    (outer : List OpenGroup) : Lexer :=
  let text :=
    match advance with
    | .token => stretch.text
    | .character => stretch.text.take 1
  { lexer.consume text.length with
    groups := { top with text := top.text ++ String.ofList text } :: outer }

/-- Closes the innermost open group `top` at its closing mark. The text of an inner group goes
    to the group around it; the outermost group becomes a token. -/
def closeGroup (lexer : Lexer) (group : Group) (stretch : Stretch) (top : OpenGroup)
    (outer : List OpenGroup) : GroupStep :=
  let (text, lexer) :=
    match group.ending with
    | .openEnded => (top.text, lexer)
    | .closed => (top.text ++ String.ofList stretch.text, lexer.consume stretch.text.length)
  match outer with
  | [] => .token ⟨group.container, .text text, top.position, 0⟩ { lexer with groups := [] }
  | parent :: outer =>
    .again { lexer with groups := { parent with text := parent.text ++ text } :: outer }

/-- Handles the next stretch of text, by its symbol and the innermost open group alone: one turn of
    the loop of `next_token`. The end of the input yields its token even while a group is open,
    unless it closes the group. -/
def groupStep (lexer : Lexer) (grammar : Grammar) : GroupStep :=
  let (stretch, lexer) := lexer.peek grammar
  match lexer.opens? grammar stretch.symbol with
  | some group => .again (lexer.openGroup group stretch)
  | none =>
    match lexer.groups with
    | [] => .token (lexer.tokenOf stretch) (lexer.consume stretch.text.length)
    | top :: outer =>
      match grammar.group? top.group with
      | none => .token (lexer.tokenOf stretch) lexer
      | some group =>
        if stretch.symbol = group.finish then lexer.closeGroup group stretch top outer
        else if grammar.kind? stretch.symbol = some .endOfInput then
          .token (lexer.tokenOf stretch) lexer
        else .again (lexer.gather group.advance stretch top outer)

/-! ## Tokens -/

/-- Takes steps up to the next token, at most a number of them: the token, or the lexer behind the
    last step. -/
def stepsWithin (grammar : Grammar) : Nat → Lexer → GroupStep
  | 0, lexer => .again lexer
  | n + 1, lexer =>
    match lexer.groupStep grammar with
    | .token token next => .token token next
    | .again next => stepsWithin grammar n next

/-- The token that steps have led to, and the lexer behind it. -/
def GroupStep.token? : GroupStep → Option (Token × Lexer)
  | .token read lexer => some (read, lexer)
  | .again _ => none

/-- The next token, if a number of steps suffices for it. -/
def nextTokenWithin (grammar : Grammar) (n : Nat) (lexer : Lexer) : Option (Token × Lexer) :=
  (stepsWithin grammar n lexer).token?

/-- The work that is left: two for every character, and one for every open group. -/
def work (lexer : Lexer) : Nat := 2 * lexer.rest.length + lexer.groups.length

/-- A number of steps within which there is a token, if there ever is one. -/
def stepBound (lexer : Lexer) : Nat := lexer.work + 2

/-- The next token, consumed from the text (`next_token`); `none` if there never is one. -/
def nextToken? (lexer : Lexer) (grammar : Grammar) : Option (Token × Lexer) :=
  nextTokenWithin grammar lexer.stepBound lexer

/-- The next token. Where there never is one, it is an empty end token behind the steps taken. -/
def nextToken (lexer : Lexer) (grammar : Grammar) : Token × Lexer :=
  match stepsWithin grammar lexer.stepBound lexer with
  | .token token next => (token, next)
  | .again next => (next.tokenOf ⟨grammar.endSymbol, []⟩, next)

/-- Reads tokens up to the end token, at most a number of them, behind the reversed list
    `done`. -/
def tokensUpTo (grammar : Grammar) : Nat → List Token → Lexer → Option (List Token × Lexer)
  | 0, _, _ => none
  | n + 1, done, lexer => do
    let (token, lexer) ← lexer.nextToken? grammar
    if token.symbol = grammar.endSymbol then return ((token :: done).reverse, lexer)
    else tokensUpTo grammar n (token :: done) lexer

/-- All tokens up to and with the end token (`tokenize`). A token that leaves the lexer as it was is
    read again and again; then there is no answer. Otherwise every token leaves less work. -/
def tokenize (lexer : Lexer) (grammar : Grammar) : Option (List Token × Lexer) :=
  tokensUpTo grammar (lexer.work + 2) [] lexer

end Lexer

end GoldTables

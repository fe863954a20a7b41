import GoldTables.Json.Lexeme

/-!
# JSON documents

A document is one value. Its lexemes are taken one by one by a machine that
keeps the arrays and objects that are open around the current place, the
innermost first.
-/

namespace GoldTables.Json

/-- An array or an object that is open. -/
inductive Frame where
  /-- An array and its items, the last one first. -/
  | array (done : List Json)
  /-- An object, its members, the last one first, and whether all keys are texts. -/
  | object (done : List (String × Json)) (readable : Bool)
  /-- An object inside a member, with the key of that member. -/
  | member (key : String) (done : List (String × Json)) (readable : Bool)

/-- Where in a document the machine is. -/
inductive Place where
  /-- Before a value. -/
  | value
  /-- Behind the bracket that opens an array. -/
  | firstItem
  /-- Behind the bracket that opens an object. -/
  | firstKey
  /-- Before a key. -/
  | key
  /-- Before the colon of a member. -/
  | colon
  /-- Behind a value in an array or an object. -/
  | next
  /-- Behind the value of the document. -/
  | finish (value : Json)

/-- The machine: the open arrays and objects, and the place. -/
structure Machine where
  frames : List Frame
  place : Place

namespace Machine

/-- The machine before a document. -/
def start : Machine := ⟨[], .value⟩

/-- Puts a value at the place of the machine. -/
def put (value : Json) : List Frame → Option Machine
  | [] => some ⟨[], .finish value⟩
  | .array done :: frames => some ⟨.array (value :: done) :: frames, .next⟩
  | .member key done readable :: frames =>
    some ⟨.object ((key, value) :: done) readable :: frames, .next⟩
  | .object _ _ :: _ => none

/-- Takes the first lexeme of a value. -/
def takeValue (frames : List Frame) : Lexeme → Option Machine
  | .value value => put value frames
  | .openArray => some ⟨.array [] :: frames, .firstItem⟩
  | .openObject => some ⟨.object [] true :: frames, .firstKey⟩
  | _ => none

/-- Takes a key. -/
def takeKey (frames : List Frame) (lexeme : Lexeme) : Option Machine :=
  match frames, lexeme with
  | .object done readable :: frames, .value (.str key) =>
    some ⟨.member key done readable :: frames, .colon⟩
  | .object done _ :: frames, .value .unreadable =>
    some ⟨.member "" done false :: frames, .colon⟩
  | _, _ => none

/-- Closes the innermost array. -/
def closeArray : List Frame → Option Machine
  | .array done :: frames => put (.arr done.reverse) frames
  | _ => none

/-- Closes the innermost object. -/
def closeObject : List Frame → Option Machine
  | .object done readable :: frames =>
    put (if readable then .obj done.reverse else .unreadable) frames
  | _ => none

/-- Takes a lexeme. -/
def step (machine : Machine) (lexeme : Lexeme) : Option Machine :=
  match machine.place, lexeme with
  | .value, lexeme => takeValue machine.frames lexeme
  | .firstItem, .closeArray => closeArray machine.frames
  | .firstItem, lexeme => takeValue machine.frames lexeme
  | .firstKey, .closeObject => closeObject machine.frames
  | .firstKey, lexeme => takeKey machine.frames lexeme
  | .key, lexeme => takeKey machine.frames lexeme
  | .colon, .colon => some { machine with place := .value }
  | .next, .closeArray => closeArray machine.frames
  | .next, .closeObject => closeObject machine.frames
  | .next, .comma =>
    match machine.frames with
    | .array _ :: _ => some { machine with place := .value }
    | .object _ _ :: _ => some { machine with place := .key }
    | _ => none
  | _, _ => none

end Machine

/-- The value of a document; `none` if the document is malformed. -/
def parse? (bytes : List UInt8) : Option Json := do
  let lexemes ← lexemes? bytes
  let machine ← lexemes.foldlM Machine.step Machine.start
  match machine.place with
  | .finish value => some value
  | _ => none

end GoldTables.Json

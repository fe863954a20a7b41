import GoldTables.Json.Basic
import GoldTables.Text.Utf8
import GoldTables.Text.Utf16

/-!
# The lexemes of a JSON document

The bytes of a document are cut into lexemes: brackets, colons, commas, and
values without parts. `scanByte` takes one byte in one of five modes, and
`scan` takes them all.

A string whose escapes are well-formed but which spells no text, because a
surrogate stands alone or its bytes are not UTF-8, becomes `unreadable`: it
may stand where nobody reads it.
-/

namespace GoldTables.Json

/-- A part of a document. -/
inductive Lexeme where
  | openArray
  | closeArray
  | openObject
  | closeObject
  | colon
  | comma
  /-- A value without parts. -/
  | value (value : Json)

/-! ## Numbers and words -/

/-- Drops the digits that a text starts with; `none` if there are none. -/
def dropDigits? (text : List Char) : Option (List Char) :=
  if (text.takeWhile Char.isDigit).isEmpty then none else some (text.dropWhile Char.isDigit)

/-- Drops an exponent, if there is one. -/
def dropExponent? : List Char → Option (List Char)
  | c :: rest =>
    if c = 'e' || c = 'E' then
      match rest with
      | sign :: digits => if sign = '+' || sign = '-' then dropDigits? digits else dropDigits? rest
      | [] => none
    else some (c :: rest)
  | [] => some []

/-- Drops the digits behind a decimal point, if there is one. -/
def dropDecimals? : List Char → Option (List Char)
  | '.' :: rest => dropDigits? rest
  | rest => some rest

/-- Whether a text can follow the integer digits of a number. -/
def isNumberTail (text : List Char) : Bool := (dropDecimals? text).bind dropExponent? = some []

section Spelling

variable {text rest : List Char} {c : Char}

theorem isNumeralChar_of_isDigit (h : c.isDigit = true) : isNumeralChar c = true := by
  simp [isNumeralChar, h]

theorem all_isNumeralChar_takeWhile (text : List Char) :
    (text.takeWhile Char.isDigit).all isNumeralChar = true :=
  List.all_eq_true.2 fun _ hc =>
    isNumeralChar_of_isDigit (List.all_eq_true.1 List.all_takeWhile _ hc)

/-- What digits are dropped from is a spelling if the rest is. -/
theorem all_isNumeralChar_of_dropDigits? (h : dropDigits? text = some rest)
    (hrest : rest.all isNumeralChar = true) : text.all isNumeralChar = true := by
  rw [dropDigits?] at h
  split at h
  · cases h
  · cases h
    rw [← List.takeWhile_append_dropWhile (p := Char.isDigit) (l := text), List.all_append,
      all_isNumeralChar_takeWhile, hrest]
    rfl

theorem all_isNumeralChar_of_dropExponent? (h : dropExponent? text = some rest)
    (hrest : rest.all isNumeralChar = true) : text.all isNumeralChar = true := by
  unfold dropExponent? at h
  split at h
  · next c text =>
    split at h
    · next hmark =>
      have hc : isNumeralChar c = true := by
        rw [isNumeralChar, Bool.or_assoc, hmark, Bool.or_true]
      rw [List.all_cons, hc, Bool.true_and]
      split at h
      · next sign digits =>
        split at h
        · next hsign =>
          have hs : isNumeralChar sign = true := by
            rw [isNumeralChar, Bool.or_assoc sign.isDigit, hsign, Bool.or_true]
            rfl
          rw [List.all_cons, hs, Bool.true_and]
          exact all_isNumeralChar_of_dropDigits? h hrest
        · exact all_isNumeralChar_of_dropDigits? h hrest
      · cases h
    · cases h
      exact hrest
  · rfl

theorem all_isNumeralChar_of_dropDecimals? (h : dropDecimals? text = some rest)
    (hrest : rest.all isNumeralChar = true) : text.all isNumeralChar = true := by
  unfold dropDecimals? at h
  split at h
  · rw [List.all_cons, all_isNumeralChar_of_dropDigits? h hrest]
    rfl
  · cases h
    exact hrest

theorem all_isNumeralChar_of_isNumberTail (h : isNumberTail text = true) :
    text.all isNumeralChar = true := by
  rw [isNumberTail, decide_eq_true_eq, Option.bind_eq_some_iff] at h
  obtain ⟨rest, hdecimals, hexponent⟩ := h
  exact all_isNumeralChar_of_dropDecimals? hdecimals
    (all_isNumeralChar_of_dropExponent? hexponent rfl)

end Spelling

/-- The spelling of a number that is given without its sign. -/
def spelled (negative : Bool) (text : List Char)
    (h : isNumberTail (text.dropWhile Char.isDigit) = true) : Numeral where
  text := String.ofList (if negative then '-' :: text else text)
  isNumeral := by
    have htext : text.all isNumeralChar = true := by
      rw [← List.takeWhile_append_dropWhile (p := Char.isDigit) (l := text), List.all_append,
        all_isNumeralChar_takeWhile, all_isNumeralChar_of_isNumberTail h]
      rfl
    rw [String.toList_ofList]
    cases negative with
    | false => exact htext
    | true =>
      rw [if_pos rfl, List.all_cons, htext]
      rfl

/-- The number that digits stand for. -/
def digitsValue (digits : List Char) : Nat :=
  digits.foldl (fun value digit => 10 * value + (digit.toNat - '0'.toNat)) 0

/-- A number without its sign. A number that is no plain integer, or is minus zero, is kept as
    it is spelled. -/
def unsigned? (negative : Bool) (text : List Char) : Option Json :=
  let digits := text.takeWhile Char.isDigit
  let tail := text.dropWhile Char.isDigit
  let value := digitsValue digits
  if digits.isEmpty || (digits.head? = some '0' && digits ≠ ['0']) then none
  else if tail.isEmpty && !(negative && value = 0) then
    some (.int (if negative then -value else value))
  else if h : isNumberTail tail then some (.fraction (spelled negative text h))
  else none

/-- The value of a number or a word. -/
def literal? : List Char → Option Json
  | ['n', 'u', 'l', 'l'] => some .null
  | ['t', 'r', 'u', 'e'] => some (.bool true)
  | ['f', 'a', 'l', 's', 'e'] => some (.bool false)
  | '-' :: text => unsigned? true text
  | text => unsigned? false text

/-! ## Strings -/

/-- What is known of a string while it is read. -/
structure Fragment where
  /-- The bytes of its text, the last one first. -/
  bytes : List UInt8
  /-- Whether it can still spell a text. -/
  readable : Bool
  /-- A first surrogate that waits for the second. -/
  pending : Option UInt16

namespace Fragment

/-- The string before its first character. -/
def empty : Fragment := ⟨[], true, none⟩

/-- A surrogate that still waits stands alone. -/
def settle (fragment : Fragment) : Fragment :=
  if fragment.pending.isSome then { fragment with readable := false, pending := none } else fragment

/-- Appends a byte. -/
def push (fragment : Fragment) (byte : UInt8) : Fragment :=
  let fragment := fragment.settle
  { fragment with bytes := byte :: fragment.bytes }

/-- Appends a character. -/
def pushChar (fragment : Fragment) (c : Char) : Fragment :=
  { fragment with bytes := (String.utf8EncodeChar c).reverse ++ fragment.bytes }

/-- Appends a 16-bit unit given by its number. -/
def pushUnit (fragment : Fragment) (unit : UInt16) : Fragment :=
  match fragment.pending with
  | some high =>
    if Text.isLowSurrogate unit then
      { fragment with pending := none }.pushChar (Text.ofSurrogates high unit)
    else { fragment with readable := false, pending := none }
  | none =>
    if Text.isHighSurrogate unit then { fragment with pending := some unit }
    else if Text.isLowSurrogate unit then { fragment with readable := false }
    else fragment.pushChar (Char.ofNat unit.toNat)

/-- The value of a string that is complete. -/
def value (fragment : Fragment) : Json :=
  let fragment := fragment.settle
  if fragment.readable then
    match Text.ofUtf8? fragment.bytes.reverse with
    | some text => .str text
    | none => .unreadable
  else .unreadable

end Fragment

/-- The byte that a short escape stands for. -/
def shortEscape? (byte : UInt8) : Option UInt8 :=
  match byte with
  | 0x22 => some 0x22
  | 0x5C => some 0x5C
  | 0x2F => some 0x2F
  | 0x62 => some 0x08
  | 0x66 => some 0x0C
  | 0x6E => some 0x0A
  | 0x72 => some 0x0D
  | 0x74 => some 0x09
  | _ => none

/-- The value of a hexadecimal digit. -/
def hexDigit? (byte : UInt8) : Option Nat :=
  let n := byte.toNat
  if 0x30 ≤ n ∧ n ≤ 0x39 then some (n - 0x30)
  else if 0x41 ≤ n ∧ n ≤ 0x46 then some (n - 0x41 + 10)
  else if 0x61 ≤ n ∧ n ≤ 0x66 then some (n - 0x61 + 10)
  else none

/-! ## The scanner -/

/-- What the scanner is in the middle of. -/
inductive Mode where
  | between
  /-- In a number or a word; its characters, the last one first. -/
  | literal (done : List Char)
  | string (fragment : Fragment)
  /-- Behind the backslash of an escape. -/
  | escape (fragment : Fragment)
  /-- In the digits of an escape by number: how many are missing, and the number so far. -/
  | digits (fragment : Fragment) (missing : Nat) (number : Nat)

/-- Whether a byte may stand in a number or a word. -/
def isLiteralByte (byte : UInt8) : Bool :=
  let c := Char.ofNat byte.toNat
  byte < 0x80 && (c.isAlphanum || c = '+' || c = '-' || c = '.')

/-- Takes a byte that starts a lexeme, or stands between two. -/
def scanStart (byte : UInt8) : Option (Mode × List Lexeme) :=
  match byte with
  | 0x20 | 0x09 | 0x0A | 0x0D => some (.between, [])
  | 0x5B => some (.between, [.openArray])
  | 0x5D => some (.between, [.closeArray])
  | 0x7B => some (.between, [.openObject])
  | 0x7D => some (.between, [.closeObject])
  | 0x3A => some (.between, [.colon])
  | 0x2C => some (.between, [.comma])
  | 0x22 => some (.string .empty, [])
  | byte => if isLiteralByte byte then some (.literal [Char.ofNat byte.toNat], []) else none

/-- Takes a byte: the mode behind it and the lexemes that it completes, the last one first. -/
def scanByte (mode : Mode) (byte : UInt8) : Option (Mode × List Lexeme) :=
  match mode with
  | .between => scanStart byte
  | .literal done =>
    if isLiteralByte byte then some (.literal (Char.ofNat byte.toNat :: done), [])
    else do
      let value ← literal? done.reverse
      let (mode, lexemes) ← scanStart byte
      return (mode, lexemes ++ [.value value])
  | .string fragment =>
    if byte = 0x22 then some (.between, [.value fragment.value])
    else if byte = 0x5C then some (.escape fragment, [])
    else if byte < 0x20 then none
    else some (.string (fragment.push byte), [])
  | .escape fragment =>
    if byte = 0x75 then some (.digits fragment 4 0, [])
    else (shortEscape? byte).map fun byte => (.string (fragment.push byte), [])
  | .digits fragment missing number => do
    let number := 16 * number + (← hexDigit? byte)
    if missing ≤ 1 then return (.string (fragment.pushUnit (UInt16.ofNat number)), [])
    else return (.digits fragment (missing - 1) number, [])

/-- Takes bytes: the lexemes of them all, behind the reversed list `done`. -/
def scan (mode : Mode) (done : List Lexeme) : List UInt8 → Option (List Lexeme)
  | [] =>
    match mode with
    | .between => some done.reverse
    | .literal text => (literal? text.reverse).map fun value => (.value value :: done).reverse
    | _ => none
  | byte :: bytes => do
    let (mode, lexemes) ← scanByte mode byte
    scan mode (lexemes ++ done) bytes

/-- The lexemes of a document. -/
def lexemes? (bytes : List UInt8) : Option (List Lexeme) := scan .between [] bytes

end GoldTables.Json

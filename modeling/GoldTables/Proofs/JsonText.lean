import GoldTables.Json.Document
import GoldTables.Json.Printer
import Mathlib.Data.List.TakeWhile

/-!
# JSON documents are read back as written

A value is printed as its lexemes with blanks between them. The scanner finds
these lexemes again, whatever comes before and behind them, and the machine
puts the value at the place where the first of them stood. So whatever is
printed is read back, except for values that have no spelling.

Results:
* `Text.ofUtf8?_toUtf8`: a text is read back from its bytes.
* `Json.lexesBefore_prettyAt`: the printed text of a value is cut into its lexemes.
* `Json.foldlM_toLexemes`: the machine puts together what the lexemes stand for.
* `Json.parse?_pretty`: a printed value is read back.
-/

namespace GoldTables

/-! ## Bytes of texts -/

namespace Text

theorem toUtf8_append (s t : String) : toUtf8 (s ++ t) = toUtf8 s ++ toUtf8 t := by
  simp [toUtf8]

theorem toUtf8_ofList (cs : List Char) :
    toUtf8 (String.ofList cs) = cs.flatMap String.utf8EncodeChar := by
  simp [toUtf8]

/-- A text is read back from its bytes. -/
theorem ofUtf8?_toUtf8 (s : String) : ofUtf8? (toUtf8 s) = some s := by
  have hbytes : (⟨(toUtf8 s).toArray⟩ : ByteArray) = s.toByteArray := by
    apply ByteArray.ext
    rw [← String.utf8Encode_toList, List.utf8Encode, List.data_toByteArray]
    rfl
  rw [ofUtf8?, hbytes, String.fromUTF8?, dif_pos s.isValidUTF8]
  rfl

/-- A character below U+0080 is one byte. -/
theorem utf8EncodeChar_of_lt {c : Char} (h : c.toNat < 0x80) :
    String.utf8EncodeChar c = [UInt8.ofNat c.toNat] := by
  have hle : c.val.toNat ≤ 0x7f := Nat.le_of_lt_succ h
  simp only [String.utf8EncodeChar, if_pos hle]
  rfl

/-- All bytes of any other character are above these. -/
theorem le_of_mem_utf8EncodeChar {c : Char} (h : 0x80 ≤ c.toNat) {byte : UInt8}
    (hbyte : byte ∈ String.utf8EncodeChar c) : 0x80 ≤ byte.toNat := by
  have hgt : ¬c.val.toNat ≤ 0x7f := Nat.not_le_of_lt h
  simp only [String.utf8EncodeChar, if_neg hgt] at hbyte
  split at hbyte
  · simp only [List.mem_cons, List.not_mem_nil, or_false] at hbyte
    rcases hbyte with rfl | rfl <;> simp only [UInt8.toNat_ofNat'] <;> omega
  · split at hbyte
    · simp only [List.mem_cons, List.not_mem_nil, or_false] at hbyte
      rcases hbyte with rfl | rfl | rfl <;> simp only [UInt8.toNat_ofNat'] <;> omega
    · simp only [List.mem_cons, List.not_mem_nil, or_false] at hbyte
      rcases hbyte with rfl | rfl | rfl | rfl <;> simp only [UInt8.toNat_ofNat'] <;> omega

end Text

namespace Json

open Text

/-! ## Bytes cut into lexemes -/

/-- Bytes that are cut into lexemes whatever stands around them. -/
def Lexes (bytes : List UInt8) (lexemes : List Lexeme) : Prop :=
  ∀ done rest, scan .between done (bytes ++ rest) = scan .between (lexemes.reverse ++ done) rest

/-- A number or a word ends in front of these bytes. -/
def EndsLiteral (rest : List UInt8) : Prop :=
  ∀ byte more, rest = byte :: more → isLiteralByte byte = false

/-- Bytes that are cut into lexemes if a number or a word at their end does not go on. -/
def LexesBefore (bytes : List UInt8) (lexemes : List Lexeme) : Prop :=
  ∀ done rest, EndsLiteral rest →
    scan .between done (bytes ++ rest) = scan .between (lexemes.reverse ++ done) rest

variable {bytes more : List UInt8} {lexemes next : List Lexeme}

theorem Lexes.before (h : Lexes bytes lexemes) : LexesBefore bytes lexemes :=
  fun done rest _ => h done rest

theorem Lexes.append_before (h : Lexes bytes lexemes) (hnext : LexesBefore more next) :
    LexesBefore (bytes ++ more) (lexemes ++ next) := by
  intro done rest hrest
  rw [List.append_assoc, h, hnext _ _ hrest, List.reverse_append, List.append_assoc]

theorem Lexes.append (h : Lexes bytes lexemes) (hnext : Lexes more next) :
    Lexes (bytes ++ more) (lexemes ++ next) := by
  intro done rest
  rw [List.append_assoc, h, hnext, List.reverse_append, List.append_assoc]

/-- A number or a word is complete in front of a byte that cannot be part of it. -/
theorem LexesBefore.append_cons {byte : UInt8} (h : LexesBefore bytes lexemes)
    (hbyte : isLiteralByte byte = false) (hnext : Lexes (byte :: more) next) :
    Lexes (bytes ++ byte :: more) (lexemes ++ next) := by
  intro done rest
  have hends : EndsLiteral (byte :: more ++ rest) := by
    intro other _ hother
    cases hother
    exact hbyte
  rw [List.append_assoc, h _ _ hends, hnext, List.reverse_append, List.append_assoc]

theorem Lexes.replicate (h : Lexes bytes lexemes) (n : Nat) :
    Lexes (List.replicate n bytes).flatten (List.replicate n lexemes).flatten := by
  induction n with
  | zero => exact fun _ _ => rfl
  | succ n ih =>
    rw [List.replicate_succ, List.flatten_cons, List.replicate_succ, List.flatten_cons]
    exact h.append ih

theorem LexesBefore.lexemes? (h : LexesBefore bytes lexemes) :
    Json.lexemes? bytes = some lexemes := by
  have hall := h [] [] (by nofun)
  rw [List.append_nil, List.append_nil] at hall
  rw [Json.lexemes?, hall, scan, List.reverse_reverse]

/-! ## Numbers and words -/

/-- A character that may stand in a number or a word. -/
def IsLiteralChar (c : Char) : Prop :=
  c.toNat < 0x80 ∧ isLiteralByte (UInt8.ofNat c.toNat) = true

instance : DecidablePred IsLiteralChar := fun _ => inferInstanceAs (Decidable (_ ∧ _))

theorem isLiteralChar_of_isDigit {c : Char} (h : c.isDigit = true) : IsLiteralChar c := by
  have hall : ∀ n < 58, 48 ≤ n → isLiteralByte (UInt8.ofNat n) = true := by decide
  obtain ⟨hlow, hhigh⟩ := Char.isDigit_iff_toNat.1 h
  have hlow : 48 ≤ c.toNat := hlow
  have hhigh : c.toNat ≤ 57 := hhigh
  exact ⟨by omega, hall c.toNat (by omega) hlow⟩

theorem charOfNat_byte {c : Char} (h : c.toNat < 0x80) :
    Char.ofNat (UInt8.ofNat c.toNat).toNat = c := by
  rw [UInt8.toNat_ofNat_of_lt' (Nat.lt_trans h (by decide)), Char.ofNat_toNat]

/-- No bracket, blank or quote can stand in a number or a word. -/
theorem scanStart_of_isLiteralByte {byte : UInt8} (h : isLiteralByte byte = true) :
    scanStart byte = some (.literal [Char.ofNat byte.toNat], []) := by
  unfold scanStart
  split
  case h_12 => rw [if_pos h]
  all_goals exact absurd h (by decide)

theorem scan_literal {chars : List Char} (hchars : ∀ c ∈ chars, IsLiteralChar c)
    (read : List Char) (done : List Lexeme) (rest : List UInt8) :
    scan (.literal read) done (chars.flatMap String.utf8EncodeChar ++ rest) =
      scan (.literal (chars.reverse ++ read)) done rest := by
  induction chars generalizing read with
  | nil => rfl
  | cons c chars ih =>
    obtain ⟨hlt, hbyte⟩ := hchars c List.mem_cons_self
    rw [List.flatMap_cons, utf8EncodeChar_of_lt hlt, List.append_assoc, List.singleton_append, scan,
      scanByte, if_pos hbyte, charOfNat_byte hlt]
    show scan (.literal (c :: read)) done _ = _
    rw [ih (fun d hd => hchars d (List.mem_cons_of_mem c hd)), List.reverse_cons, List.append_assoc,
      List.singleton_append]

/-- A number or a word is complete in front of what cannot be part of it. -/
theorem scan_literal_end {read : List Char} {value : Json} {done : List Lexeme} {rest : List UInt8}
    (hvalue : literal? read.reverse = some value) (hrest : EndsLiteral rest) :
    scan (.literal read) done rest = scan .between (.value value :: done) rest := by
  cases rest with
  | nil =>
    show (literal? read.reverse).map (fun value => (Lexeme.value value :: done).reverse) = _
    rw [hvalue]
    rfl
  | cons byte rest =>
    have hbyte := hrest byte rest rfl
    rw [scan, scan]
    cases hstart : scanStart byte with
    | none => simp [scanByte, hbyte, hvalue, hstart]
    | some row => simp [scanByte, hbyte, hvalue, hstart]

/-- A number or a word is one lexeme. -/
theorem lexesBefore_literal {chars : List Char} {value : Json} (hne : chars ≠ [])
    (hchars : ∀ c ∈ chars, IsLiteralChar c) (hvalue : literal? chars = some value) :
    LexesBefore (chars.flatMap String.utf8EncodeChar) [.value value] := by
  intro done rest hrest
  obtain ⟨c, others, rfl⟩ := List.exists_cons_of_ne_nil hne
  obtain ⟨hlt, hbyte⟩ := hchars c List.mem_cons_self
  rw [List.flatMap_cons, utf8EncodeChar_of_lt hlt, List.append_assoc, List.singleton_append, scan,
    scanByte, scanStart_of_isLiteralByte hbyte, charOfNat_byte hlt]
  show scan (.literal [c]) done _ = _
  rw [scan_literal fun d hd => hchars d (List.mem_cons_of_mem c hd)]
  apply scan_literal_end _ hrest
  rw [List.reverse_append, List.reverse_reverse]
  exact hvalue

/-! ### Integers -/

theorem digitsValue_toDigits (n : Nat) : digitsValue (Nat.toDigits 10 n) = n :=
  Nat.ofDigitChars_ten_toDigits

/-- Only zero is written with a leading zero. -/
theorem head?_toDigits (n : Nat) (h : (Nat.toDigits 10 n).head? = some '0') : n = 0 := by
  induction n using Nat.strongRecOn with
  | ind n ih =>
    rw [Nat.toDigits_eq_if (by decide)] at h
    split at h
    · next hlt =>
      have hall : ∀ d < 10, [Nat.digitChar d].head? = some '0' → d = 0 := by decide
      exact hall n hlt h
    · next hge =>
      have hne : Nat.toDigits 10 (n / 10) ≠ [] := Nat.toDigits_ne_nil
      rw [List.head?_append, List.head?_eq_some_head hne, Option.some_or,
        ← List.head?_eq_some_head hne] at h
      have hzero := ih (n / 10) (by omega) h
      omega

theorem unsigned?_toDigits (negative : Bool) {n : Nat} (h : negative = true → n ≠ 0) :
    unsigned? negative (Nat.toDigits 10 n) = some (.int (if negative then -n else n)) := by
  have hdigits : ∀ c ∈ Nat.toDigits 10 n, c.isDigit = true := fun c hc =>
    Nat.isDigit_of_mem_toDigits (by decide) (by decide) hc
  have htake : (Nat.toDigits 10 n).takeWhile Char.isDigit = Nat.toDigits 10 n :=
    List.takeWhile_eq_self_iff.2 hdigits
  have hdrop : (Nat.toDigits 10 n).dropWhile Char.isDigit = [] :=
    List.dropWhile_eq_nil_iff.2 hdigits
  have hempty : (Nat.toDigits 10 n).isEmpty = false := by simp
  have hzero : (decide ((Nat.toDigits 10 n).head? = some '0') &&
      decide (Nat.toDigits 10 n ≠ ['0'])) = false := by
    rw [Bool.and_eq_false_iff, decide_eq_false_iff_not, decide_eq_false_iff_not]
    by_cases hn : n = 0
    · right
      subst hn
      decide
    · left
      exact fun hhead => hn (head?_toDigits n hhead)
  have hminus : (negative && decide (n = 0)) = false := by
    cases negative with
    | false => rfl
    | true => simpa using h rfl
  unfold unsigned?
  simp only [htake, hdrop, hempty, hzero, digitsValue_toDigits, hminus, Bool.or_false,
    Bool.false_eq_true, if_false, List.isEmpty_nil, Bool.not_false, Bool.and_true, if_true]

theorem literal?_toDigits (n : Nat) : literal? (Nat.toDigits 10 n) = some (.int n) := by
  have hdigits : ∀ c ∈ Nat.toDigits 10 n, c.isDigit = true := fun c hc =>
    Nat.isDigit_of_mem_toDigits (by decide) (by decide) hc
  have hvalue := unsigned?_toDigits false (n := n) (by nofun)
  generalize Nat.toDigits 10 n = digits at hdigits hvalue
  unfold literal?
  split
  case h_5 => exact hvalue
  all_goals exact absurd (hdigits _ List.mem_cons_self) (by decide)

theorem lexesBefore_int (n : Int) : LexesBefore (toUtf8 (toString n)) [.value (.int n)] := by
  have hdigits : ∀ n, ∀ c ∈ Nat.toDigits 10 n, IsLiteralChar c := fun n c hc =>
    isLiteralChar_of_isDigit (Nat.isDigit_of_mem_toDigits (by decide) (by decide) hc)
  cases n with
  | ofNat n =>
    show LexesBefore ((Nat.repr n).toList.flatMap String.utf8EncodeChar) _
    rw [Nat.toList_repr]
    exact lexesBefore_literal Nat.toDigits_ne_nil (hdigits n) (literal?_toDigits n)
  | negSucc n =>
    show LexesBefore (("-" ++ Nat.repr (n + 1)).toList.flatMap String.utf8EncodeChar) _
    rw [String.toList_append, Nat.toList_repr]
    apply lexesBefore_literal (List.cons_ne_nil _ _)
    · intro c hc
      rcases List.mem_cons.1 hc with rfl | hc
      · exact ⟨by decide, by decide⟩
      · exact hdigits (n + 1) c hc
    · exact unsigned?_toDigits true fun _ => Nat.succ_ne_zero n

/-! ## Strings -/

/-- Bytes that stand for themselves in a string. -/
theorem scan_string_raw {bytes : List UInt8}
    (hbytes : ∀ byte ∈ bytes, byte ≠ 0x22 ∧ byte ≠ 0x5C ∧ ¬byte < 0x20)
    (read : List UInt8) (done : List Lexeme) (rest : List UInt8) :
    scan (.string ⟨read, true, none⟩) done (bytes ++ rest) =
      scan (.string ⟨bytes.reverse ++ read, true, none⟩) done rest := by
  induction bytes generalizing read with
  | nil => rfl
  | cons byte bytes ih =>
    obtain ⟨hquote, hbackslash, hcontrol⟩ := hbytes byte List.mem_cons_self
    rw [List.cons_append, scan, scanByte, if_neg hquote, if_neg hbackslash, if_neg hcontrol]
    show scan (.string ⟨byte :: read, true, none⟩) done (bytes ++ rest) = _
    rw [ih (fun other hother => hbytes other (List.mem_cons_of_mem byte hother)),
      List.reverse_cons, List.append_assoc, List.singleton_append]

theorem hexDigit?_digitChar : ∀ d < 16,
    hexDigit? (UInt8.ofNat (Nat.digitChar d).toNat) = some d ∧ (Nat.digitChar d).toNat < 0x80 := by
  decide

/-- An escape by number of a character below U+0020. -/
theorem scan_string_control {c : Char} (h : c.toNat < 0x20) (read : List UInt8)
    (done : List Lexeme) (rest : List UInt8) :
    scan (.string ⟨read, true, none⟩) done
        ((['\\', 'u', '0', '0'] ++ hexByte (UInt8.ofNat c.toNat)).flatMap String.utf8EncodeChar ++
          rest) =
      scan (.string ⟨(String.utf8EncodeChar c).reverse ++ read, true, none⟩) done rest := by
  have hbyte : (UInt8.ofNat c.toNat).toNat = c.toNat :=
    UInt8.toNat_ofNat_of_lt' (Nat.lt_trans h (by decide))
  obtain ⟨hhigh, hhighlt⟩ := hexDigit?_digitChar (c.toNat / 16) (by omega)
  obtain ⟨hlow, hlowlt⟩ := hexDigit?_digitChar (c.toNat % 16) (by omega)
  have hbytes : (['\\', 'u', '0', '0'] ++ hexByte (UInt8.ofNat c.toNat)).flatMap
      String.utf8EncodeChar = [0x5C, 0x75, 0x30, 0x30,
        UInt8.ofNat (Nat.digitChar (c.toNat / 16)).toNat,
        UInt8.ofNat (Nat.digitChar (c.toNat % 16)).toNat] := by
    rw [hexByte, hbyte]
    have hdigits : [Nat.digitChar (c.toNat / 16), Nat.digitChar (c.toNat % 16)].flatMap
        String.utf8EncodeChar = [UInt8.ofNat (Nat.digitChar (c.toNat / 16)).toNat,
          UInt8.ofNat (Nat.digitChar (c.toNat % 16)).toNat] := by
      rw [List.flatMap_cons, List.flatMap_singleton, utf8EncodeChar_of_lt hhighlt,
        utf8EncodeChar_of_lt hlowlt]
      rfl
    rw [List.flatMap_append, hdigits]
    rfl
  rw [hbytes]
  show scan (.digits ⟨read, true, none⟩ 2 0) done (_ :: _ :: rest) = _
  rw [scan, scanByte, hhigh]
  show scan (.digits ⟨read, true, none⟩ 1 (16 * 0 + c.toNat / 16)) done (_ :: rest) = _
  rw [scan, scanByte, hlow]
  show scan (.string (Fragment.pushUnit ⟨read, true, none⟩
    (UInt16.ofNat (16 * (16 * 0 + c.toNat / 16) + c.toNat % 16)))) done rest = _
  rw [show 16 * (16 * 0 + c.toNat / 16) + c.toNat % 16 = c.toNat by omega]
  have hunit : (UInt16.ofNat c.toNat).toNat = c.toNat :=
    UInt16.toNat_ofNat_of_lt' (Nat.lt_trans h (by decide))
  have hsurrogate : isHighSurrogate (UInt16.ofNat c.toNat) = false ∧
      isLowSurrogate (UInt16.ofNat c.toNat) = false := by
    simp only [isHighSurrogate, isLowSurrogate, UInt16.le_iff_toNat_le, UInt16.lt_iff_toNat_lt,
      hunit]
    constructor <;> simp <;> omega
  simp only [Fragment.pushUnit, hsurrogate.1, hsurrogate.2, Bool.false_eq_true, if_false,
    Fragment.pushChar, hunit, Char.ofNat_toNat]

/-- A character is read back from its spelling in a string. -/
theorem scan_escapedChar (c : Char) (read : List UInt8) (done : List Lexeme) (rest : List UInt8) :
    scan (.string ⟨read, true, none⟩) done
        ((escapedChar c).flatMap String.utf8EncodeChar ++ rest) =
      scan (.string ⟨(String.utf8EncodeChar c).reverse ++ read, true, none⟩) done rest := by
  unfold escapedChar
  split_ifs with hquote hbackslash hbackspace hfeed hline hreturn htab hcontrol
  · subst hquote; rfl
  · subst hbackslash; rfl
  · subst hbackspace; rfl
  · subst hfeed; rfl
  · subst hline; rfl
  · subst hreturn; rfl
  · subst htab; rfl
  · exact scan_string_control hcontrol read done rest
  · rw [List.flatMap_singleton]
    apply scan_string_raw
    have hblank : ¬c.toNat < 0x20 := hcontrol
    intro byte hbyte
    have hspelled : byte.toNat = c.toNat ∨ 0x80 ≤ byte.toNat := by
      by_cases hlt : c.toNat < 0x80
      · rw [utf8EncodeChar_of_lt hlt, List.mem_singleton] at hbyte
        left
        rw [hbyte, UInt8.toNat_ofNat_of_lt' (Nat.lt_trans hlt (by decide))]
      · exact Or.inr (le_of_mem_utf8EncodeChar (by omega) hbyte)
    refine ⟨?_, ?_, ?_⟩
    · rintro rfl
      have hcode : 0x22 = c.toNat := by simpa using hspelled
      exact hquote (Char.toNat_inj.1 hcode.symm)
    · rintro rfl
      have hcode : 0x5C = c.toNat := by simpa using hspelled
      exact hbackslash (Char.toNat_inj.1 hcode.symm)
    · rw [UInt8.lt_iff_toNat_lt]
      show ¬byte.toNat < 0x20
      omega

theorem scan_escaped (chars : List Char) (read : List UInt8) (done : List Lexeme)
    (rest : List UInt8) :
    scan (.string ⟨read, true, none⟩) done
        ((chars.flatMap escapedChar).flatMap String.utf8EncodeChar ++ rest) =
      scan (.string ⟨(chars.flatMap String.utf8EncodeChar).reverse ++ read, true, none⟩) done
        rest := by
  induction chars generalizing read with
  | nil => rfl
  | cons c chars ih =>
    rw [List.flatMap_cons, List.flatMap_append, List.append_assoc, scan_escapedChar, ih,
      List.flatMap_cons, List.reverse_append, List.append_assoc]

/-- A string is one lexeme. -/
theorem lexes_quote (s : String) : Lexes (toUtf8 (quote s)) [.value (.str s)] := by
  intro done rest
  have hbytes : toUtf8 (quote s) =
      0x22 :: ((s.toList.flatMap escapedChar).flatMap String.utf8EncodeChar ++ [0x22]) := by
    rw [quote, toUtf8_ofList, List.flatMap_append, List.flatMap_cons]
    rfl
  have hvalue : Fragment.value ⟨(toUtf8 s).reverse, true, none⟩ = .str s := by
    simp [Fragment.value, Fragment.settle, ofUtf8?_toUtf8]
  rw [hbytes]
  show scan (.string ⟨[], true, none⟩) done (_ ++ [0x22] ++ rest) = _
  rw [List.append_assoc, scan_escaped, List.append_nil]
  show scan .between ([.value (Fragment.value ⟨(toUtf8 s).reverse, true, none⟩)] ++ done) rest = _
  rw [hvalue]
  rfl

/-! ## Lexemes of values -/

mutual

/-- The lexemes that a value is printed as. -/
def toLexemes : Json → List Lexeme
  | arr [] => [.openArray, .closeArray]
  | arr (item :: items) => .openArray :: (item.toLexemes ++ itemLexemes items ++ [.closeArray])
  | obj [] => [.openObject, .closeObject]
  | obj ((key, value) :: members) =>
    .openObject :: .value (.str key) :: .colon ::
      (value.toLexemes ++ memberLexemes members ++ [.closeObject])
  | value => [.value value]

/-- The lexemes of further items. -/
def itemLexemes : List Json → List Lexeme
  | [] => []
  | item :: items => .comma :: (item.toLexemes ++ itemLexemes items)

/-- The lexemes of further members. -/
def memberLexemes : List (String × Json) → List Lexeme
  | [] => []
  | (key, value) :: members =>
    .comma :: .value (.str key) :: .colon :: (value.toLexemes ++ memberLexemes members)

end

mutual

/-- Whether a value has a spelling that says what it is: it holds neither a number that is not a
    plain integer nor an unreadable string. -/
def isSpelled : Json → Bool
  | fraction _ | unreadable => false
  | arr items => allSpelled items
  | obj members => membersSpelled members
  | null | bool _ | int _ | str _ => true

/-- Whether all items have such a spelling. -/
def allSpelled : List Json → Bool
  | [] => true
  | item :: items => item.isSpelled && allSpelled items

/-- Whether the values of all members have such a spelling. -/
def membersSpelled : List (String × Json) → Bool
  | [] => true
  | (_, value) :: members => value.isSpelled && membersSpelled members

end

/-! ## Printed values are cut into their lexemes -/

section Texts

variable {text : String} {lexemes next : List Lexeme}

theorem Lexes.append_text_before {more : String} (h : Lexes (toUtf8 text) lexemes)
    (hmore : LexesBefore (toUtf8 more) next) :
    LexesBefore (toUtf8 (text ++ more)) (lexemes ++ next) := by
  rw [toUtf8_append]
  exact h.append_before hmore

theorem Lexes.append_text {more : String} (h : Lexes (toUtf8 text) lexemes)
    (hmore : Lexes (toUtf8 more) next) : Lexes (toUtf8 (text ++ more)) (lexemes ++ next) := by
  rw [toUtf8_append]
  exact h.append hmore

theorem lexesBefore_word (text : String) (hne : text.toList ≠ [])
    (hchars : text.toList.all (fun c => IsLiteralChar c) = true) {value : Json}
    (hvalue : literal? text.toList = some value) :
    LexesBefore (toUtf8 text) [.value value] := by
  apply lexesBefore_literal hne _ hvalue
  intro c hc
  exact of_decide_eq_true (List.all_eq_true.1 hchars c hc)

theorem toUtf8_newLine (depth : Nat) :
    toUtf8 (newLine depth) = 0x0A :: List.replicate (2 * depth) 0x20 := by
  rw [newLine, toUtf8_ofList, List.flatMap_cons, List.flatMap_replicate,
    show String.utf8EncodeChar ' ' = [0x20] from rfl, List.flatten_replicate_singleton]
  rfl

/-- A new line is no lexeme. -/
theorem lexes_newLine (depth : Nat) : Lexes (toUtf8 (newLine depth)) [] := by
  have hblanks : ∀ n, Lexes (List.replicate n (0x20 : UInt8)) [] := by
    intro n
    induction n with
    | zero => exact fun _ _ => rfl
    | succ n ih => exact fun done rest => ih done rest
  rw [toUtf8_newLine]
  exact fun done rest => hblanks (2 * depth) done rest

/-- A number or a word ends at a new line. -/
theorem LexesBefore.newLine (h : LexesBefore (toUtf8 text) lexemes) (depth : Nat) :
    Lexes (toUtf8 (text ++ newLine depth)) lexemes := by
  have hline := lexes_newLine depth
  rw [toUtf8_newLine] at hline
  rw [toUtf8_append, toUtf8_newLine, ← List.append_nil lexemes]
  exact h.append_cons (by decide) hline

/-- A number or a word ends at a comma. -/
theorem LexesBefore.comma (h : LexesBefore (toUtf8 text) lexemes) (depth : Nat) :
    Lexes (toUtf8 (text ++ "," ++ Json.newLine depth)) (lexemes ++ [.comma]) := by
  have hcomma : Lexes (toUtf8 ",") [.comma] := fun _ _ => rfl
  have hall := hcomma.append (lexes_newLine depth)
  rw [List.append_nil] at hall
  rw [String.append_assoc, toUtf8_append, toUtf8_append]
  exact h.append_cons (by decide) hall

/-- A key and the value of its member. -/
theorem Lexes.member {more : String} (h : Lexes (toUtf8 text) lexemes) (key : String)
    (hmore : LexesBefore (toUtf8 more) next) :
    LexesBefore (toUtf8 (text ++ quote key ++ ": " ++ more))
      (lexemes ++ .value (.str key) :: .colon :: next) := by
  have hcolon : Lexes (toUtf8 ": ") [.colon] := fun _ _ => rfl
  have hall := ((h.append_text (lexes_quote key)).append_text hcolon).append_text_before hmore
  rwa [List.append_assoc, List.append_assoc] at hall

end Texts

mutual

/-- The printed text of a value is cut into its lexemes. -/
theorem lexesBefore_prettyAt (depth : Nat) (value : Json) (h : value.isSpelled = true) :
    LexesBefore (toUtf8 (value.prettyAt depth)) value.toLexemes := by
  match value with
  | null => exact lexesBefore_word "null" (by decide) (by decide) rfl
  | bool true => exact lexesBefore_word "true" (by decide) (by decide) rfl
  | bool false => exact lexesBefore_word "false" (by decide) (by decide) rfl
  | int n => exact lexesBefore_int n
  | str s => exact (lexes_quote s).before
  | arr [] =>
    have hbrackets : Lexes (toUtf8 "[]") [.openArray, .closeArray] := fun _ _ => rfl
    exact hbrackets.before
  | arr (item :: items) =>
    rw [isSpelled, allSpelled, Bool.and_eq_true] at h
    have hopen : Lexes (toUtf8 "[") [.openArray] := fun _ _ => rfl
    have hclose : Lexes (toUtf8 "]") [.closeArray] := fun _ _ => rfl
    have hfirst := (hopen.append_text (lexes_newLine (depth + 1))).append_text_before
      (lexesBefore_prettyAt (depth + 1) item h.1)
    have hitems := lexesBefore_prettyItems (depth + 1) items h.2 hfirst
    have hall := ((hitems.newLine depth).append_text hclose).before
    rw [prettyAt, toLexemes]
    simpa using hall
  | obj [] =>
    have hbraces : Lexes (toUtf8 "\x7b\x7d") [.openObject, .closeObject] := fun _ _ => rfl
    exact hbraces.before
  | obj ((key, member) :: members) =>
    rw [isSpelled, membersSpelled, Bool.and_eq_true] at h
    have hopen : Lexes (toUtf8 "\x7b") [.openObject] := fun _ _ => rfl
    have hclose : Lexes (toUtf8 "\x7d") [.closeObject] := fun _ _ => rfl
    have hfirst := (hopen.append_text (lexes_newLine (depth + 1))).member key
      (lexesBefore_prettyAt (depth + 1) member h.1)
    have hmembers := lexesBefore_prettyMembers (depth + 1) members h.2 hfirst
    have hall := ((hmembers.newLine depth).append_text hclose).before
    rw [prettyAt, toLexemes]
    simpa using hall

theorem lexesBefore_prettyItems (depth : Nat) (items : List Json) (h : allSpelled items = true)
    {text : String} {lexemes : List Lexeme} (htext : LexesBefore (toUtf8 text) lexemes) :
    LexesBefore (toUtf8 (prettyItems depth text items)) (lexemes ++ itemLexemes items) := by
  match items with
  | [] =>
    rw [itemLexemes, List.append_nil]
    exact htext
  | item :: items =>
    rw [allSpelled, Bool.and_eq_true] at h
    have hitem := (htext.comma depth).append_text_before (lexesBefore_prettyAt depth item h.1)
    have hitems := lexesBefore_prettyItems depth items h.2 hitem
    rw [prettyItems, itemLexemes]
    simpa using hitems

theorem lexesBefore_prettyMembers (depth : Nat) (members : List (String × Json))
    (h : membersSpelled members = true) {text : String} {lexemes : List Lexeme}
    (htext : LexesBefore (toUtf8 text) lexemes) :
    LexesBefore (toUtf8 (prettyMembers depth text members))
      (lexemes ++ memberLexemes members) := by
  match members with
  | [] =>
    rw [memberLexemes, List.append_nil]
    exact htext
  | (key, member) :: members =>
    rw [membersSpelled, Bool.and_eq_true] at h
    have hmember := (htext.comma depth).member key
      (lexesBefore_prettyAt depth member h.1)
    have hmembers := lexesBefore_prettyMembers depth members h.2 hmember
    rw [prettyMembers, memberLexemes]
    simpa using hmembers

end

/-! ## Lexemes are put together -/

/-- At the first place of an array an item may stand, as at any other place of a value. -/
theorem foldlM_firstItem (value : Json) (frames : List Frame) :
    value.toLexemes.foldlM Machine.step ⟨frames, .firstItem⟩ =
      value.toLexemes.foldlM Machine.step ⟨frames, .value⟩ := by
  match value with
  | null | bool _ | int _ | fraction _ | str _ | unreadable => simp [toLexemes, Machine.step]
  | arr [] | arr (_ :: _) | obj [] | obj ((_, _) :: _) => simp [toLexemes, Machine.step]

mutual

/-- The machine puts a value where its first lexeme stood. -/
theorem foldlM_toLexemes (value : Json) (frames : List Frame) :
    value.toLexemes.foldlM Machine.step ⟨frames, .value⟩ = Machine.put value frames := by
  match value with
  | null | bool _ | int _ | fraction _ | str _ | unreadable =>
    simp [toLexemes, Machine.step, Machine.takeValue]
  | arr [] =>
    show Machine.put (.arr []) frames >>= pure = _
    exact bind_pure _
  | arr (item :: items) =>
    rw [toLexemes, List.foldlM_cons]
    show List.foldlM Machine.step ⟨.array [] :: frames, .firstItem⟩ _ = _
    rw [List.foldlM_append, List.foldlM_append, foldlM_firstItem, foldlM_toLexemes item]
    show List.foldlM Machine.step ⟨.array [item] :: frames, .next⟩ _ >>= _ = _
    rw [foldlM_itemLexemes items]
    show Machine.put (.arr (items.reverse ++ [item]).reverse) frames >>= pure = _
    rw [bind_pure, List.reverse_append, List.reverse_reverse]
    rfl
  | obj [] =>
    show Machine.put (.obj []) frames >>= pure = _
    exact bind_pure _
  | obj ((key, member) :: members) =>
    rw [toLexemes]
    show List.foldlM Machine.step ⟨.member key [] true :: frames, .value⟩ _ = _
    rw [List.foldlM_append, List.foldlM_append, foldlM_toLexemes member]
    show List.foldlM Machine.step ⟨.object [(key, member)] true :: frames, .next⟩ _ >>= _ = _
    rw [foldlM_memberLexemes members]
    show Machine.put (.obj (members.reverse ++ [(key, member)]).reverse) frames >>= pure = _
    rw [bind_pure, List.reverse_append, List.reverse_reverse]
    rfl

theorem foldlM_itemLexemes (items done : List Json) (frames : List Frame) :
    (itemLexemes items).foldlM Machine.step ⟨.array done :: frames, .next⟩ =
      some ⟨.array (items.reverse ++ done) :: frames, .next⟩ := by
  match items with
  | [] => rfl
  | item :: items =>
    rw [itemLexemes, List.foldlM_cons]
    show List.foldlM Machine.step ⟨.array done :: frames, .value⟩ _ = _
    rw [List.foldlM_append, foldlM_toLexemes item]
    show List.foldlM Machine.step ⟨.array (item :: done) :: frames, .next⟩ _ = _
    rw [foldlM_itemLexemes items, List.reverse_cons, List.append_assoc, List.singleton_append]

theorem foldlM_memberLexemes (members done : List (String × Json)) (frames : List Frame) :
    (memberLexemes members).foldlM Machine.step ⟨.object done true :: frames, .next⟩ =
      some ⟨.object (members.reverse ++ done) true :: frames, .next⟩ := by
  match members with
  | [] => rfl
  | (key, member) :: members =>
    rw [memberLexemes]
    show List.foldlM Machine.step ⟨.member key done true :: frames, .value⟩ _ = _
    rw [List.foldlM_append, foldlM_toLexemes member]
    show List.foldlM Machine.step ⟨.object ((key, member) :: done) true :: frames, .next⟩ _ = _
    rw [foldlM_memberLexemes members, List.reverse_cons, List.append_assoc, List.singleton_append]

end

/-- A printed value is read back. -/
theorem parse?_pretty {value : Json} (h : value.isSpelled = true) :
    parse? (toUtf8 value.pretty) = some value := by
  rw [parse?, pretty, (lexesBefore_prettyAt 0 value h).lexemes?, Option.bind_eq_bind,
    Option.bind_some, Machine.start, foldlM_toLexemes]
  rfl

end Json

end GoldTables

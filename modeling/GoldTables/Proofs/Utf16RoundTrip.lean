import GoldTables.Record.Reader
import GoldTables.Record.Writer

/-!
# Texts survive their encoding

A text is stored as UTF-16 units that end in a zero. Encoding and decoding
again gives the text back, and since no character but NUL has a zero among its
units, the zero that ends the stored text is the first one.

Results:
* `ofUtf16_toUtf16`: a text is read back from its units.
* `splitUnits_textBytes`: the bytes of a text without NUL are split behind its own zero.
* `hasNul_ofUtf16`: units without a zero, paired or not, stand for a text without NUL.
-/

namespace GoldTables

namespace Text

/-! ## One character -/

theorem isHighSurrogate_iff (u : UInt16) :
    isHighSurrogate u = true ↔ 0xD800 ≤ u.toNat ∧ u.toNat < 0xDC00 := by
  simp [isHighSurrogate, UInt16.le_iff_toNat_le, UInt16.lt_iff_toNat_lt]

theorem isLowSurrogate_iff (u : UInt16) :
    isLowSurrogate u = true ↔ 0xDC00 ≤ u.toNat ∧ u.toNat < 0xE000 := by
  simp [isLowSurrogate, UInt16.le_iff_toNat_le, UInt16.lt_iff_toNat_lt]

theorem toNat_charOfNat {n : Nat} (h : n < 0xD800 ∨ 0xDFFF < n ∧ n < 0x110000) :
    (Char.ofNat n).toNat = n := by
  have hvalid : n.isValidChar := h
  rw [Char.ofNat, dif_pos hvalid]
  rfl

/-- No character has a code point among the surrogates. -/
theorem toNat_lt_or (c : Char) : c.toNat < 0xD800 ∨ 0xDFFF < c.toNat ∧ c.toNat < 0x110000 :=
  c.valid

/-- The units of a character are read back as the character, whatever follows them. -/
theorem ofUtf16Onto_utf16Char (done : List Char) (c : Char) (rest : List UInt16) :
    ofUtf16Onto done (utf16Char c ++ rest) = ofUtf16Onto (c :: done) rest := by
  have hc := toNat_lt_or c
  unfold utf16Char
  split
  · next hsmall =>
    have hunit : (UInt16.ofNat c.toNat).toNat = c.toNat := UInt16.toNat_ofNat_of_lt hsmall
    have hhigh : isHighSurrogate (UInt16.ofNat c.toNat) = false := by
      rw [Bool.eq_false_iff, ne_eq, isHighSurrogate_iff, hunit]
      omega
    have hlow : isLowSurrogate (UInt16.ofNat c.toNat) = false := by
      rw [Bool.eq_false_iff, ne_eq, isLowSurrogate_iff, hunit]
      omega
    cases rest with
    | nil => simp [ofUtf16Onto, hhigh, hlow, hunit]
    | cons v rest => simp [ofUtf16Onto, hhigh, hlow, hunit]
  · next hlarge =>
    have hu : (UInt16.ofNat (0xD800 + (c.toNat - 0x10000) / 0x400)).toNat =
        0xD800 + (c.toNat - 0x10000) / 0x400 :=
      UInt16.toNat_ofNat_of_lt (show _ < 65536 by omega)
    have hv : (UInt16.ofNat (0xDC00 + (c.toNat - 0x10000) % 0x400)).toNat =
        0xDC00 + (c.toNat - 0x10000) % 0x400 :=
      UInt16.toNat_ofNat_of_lt (show _ < 65536 by omega)
    have hhigh := (isHighSurrogate_iff (UInt16.ofNat (0xD800 + (c.toNat - 0x10000) / 0x400))).2
      (by rw [hu]; omega)
    have hlow := (isLowSurrogate_iff (UInt16.ofNat (0xDC00 + (c.toNat - 0x10000) % 0x400))).2
      (by rw [hv]; omega)
    have hpair : ofSurrogates (UInt16.ofNat (0xD800 + (c.toNat - 0x10000) / 0x400))
        (UInt16.ofNat (0xDC00 + (c.toNat - 0x10000) % 0x400)) = c := by
      have hback : 0x10000 + (0xD800 + (c.toNat - 0x10000) / 0x400 - 0xD800) * 0x400 +
          (0xDC00 + (c.toNat - 0x10000) % 0x400 - 0xDC00) = c.toNat := by omega
      rw [ofSurrogates, hu, hv, hback, Char.ofNat_toNat]
    rw [List.cons_append, List.cons_append, List.nil_append, ofUtf16Onto]
    simp only [hhigh, hlow, if_true, hpair]

/-! ## Texts -/

theorem ofUtf16Onto_flatMap (done : List Char) (text : List Char) :
    ofUtf16Onto done (text.flatMap utf16Char) = done.reverse ++ text := by
  induction text generalizing done with
  | nil => simp [ofUtf16Onto]
  | cons c text ih => rw [List.flatMap_cons, ofUtf16Onto_utf16Char, ih]; simp

/-- A text is read back from its units. -/
theorem ofUtf16_toUtf16 (s : String) : ofUtf16 (toUtf16 s) = s := by
  rw [ofUtf16, toUtf16, ofUtf16Onto_flatMap, List.reverse_nil, List.nil_append,
    String.ofList_toList]

/-- Only the NUL character has a zero among its units. -/
theorem zero_notMem_utf16Char {c : Char} (h : c ≠ '\x00') : (0 : UInt16) ∉ utf16Char c := by
  have hc := toNat_lt_or c
  have hpos : c.toNat ≠ 0 := by
    intro hzero
    apply h
    rw [← Char.ofNat_toNat c, hzero]
  -- a unit is zero only if its number is, and the number of each unit is known
  have hunit : ∀ n, n < 65536 → n ≠ 0 → (0 : UInt16) ≠ UInt16.ofNat n := by
    intro n hn hne heq
    have := congrArg UInt16.toNat heq
    rw [UInt16.toNat_ofNat_of_lt' hn] at this
    exact hne this.symm
  unfold utf16Char
  split
  · next hsmall => simpa using hunit _ hsmall hpos
  · next hlarge =>
    simp only [List.mem_cons, List.not_mem_nil, or_false, not_or]
    exact ⟨hunit _ (by omega) (by omega), hunit _ (by omega) (by omega)⟩

theorem zero_notMem_toUtf16 {s : String} (h : hasNul s = false) : (0 : UInt16) ∉ toUtf16 s := by
  rw [toUtf16, List.mem_flatMap]
  rintro ⟨c, hc, hzero⟩
  refine zero_notMem_utf16Char ?_ hzero
  rintro rfl
  simp [hasNul, hc] at h

/-- The character read from a unit, or from a pair of units, is NUL for a zero only. -/
theorem charOfNat_ne_nul {n : Nat} (hpos : n ≠ 0)
    (hvalid : n < 0xD800 ∨ 0xDFFF < n ∧ n < 0x110000) : Char.ofNat n ≠ '\x00' := by
  intro h
  have := congrArg Char.toNat h
  rw [toNat_charOfNat hvalid] at this
  exact hpos this

theorem ofSurrogates_ne_nul {u v : UInt16} (hu : isHighSurrogate u = true)
    (hv : isLowSurrogate v = true) : ofSurrogates u v ≠ '\x00' := by
  rw [isHighSurrogate_iff] at hu
  rw [isLowSurrogate_iff] at hv
  exact charOfNat_ne_nul (by omega) (by omega)

theorem charOfUnit_ne_nul {u : UInt16} (h0 : u ≠ 0) (hhigh : ¬isHighSurrogate u = true)
    (hlow : ¬isLowSurrogate u = true) : Char.ofNat u.toNat ≠ '\x00' := by
  rw [isHighSurrogate_iff] at hhigh
  rw [isLowSurrogate_iff] at hlow
  have hlt := u.toNat_lt
  refine charOfNat_ne_nul ?_ (by omega)
  intro hzero
  exact h0 (UInt16.toNat.inj hzero)

theorem nul_notMem_ofUtf16Onto (done : List Char) (units : List UInt16) (hunits : 0 ∉ units)
    (hdone : '\x00' ∉ done) : '\x00' ∉ ofUtf16Onto done units := by
  fun_induction ofUtf16Onto done units with
  | case1 done => simpa using hdone
  | case2 done u c =>
    rw [List.mem_reverse, List.mem_cons, not_or]
    refine ⟨?_, hdone⟩
    simp only [List.mem_singleton] at hunits
    simp only [c]
    split
    · decide
    · next h =>
      rw [Bool.or_eq_true, not_or] at h
      exact (charOfUnit_ne_nul (Ne.symm hunits) h.1 h.2).symm
  | case3 done u v rest hu hv ih =>
    simp only [List.mem_cons, not_or] at hunits ih ⊢
    exact ih hunits.2.2 ⟨(ofSurrogates_ne_nul hu hv).symm, hdone⟩
  | case4 done u v rest hu hv ih =>
    rw [List.mem_cons, not_or] at hunits
    exact ih hunits.2 (by simpa using hdone)
  | case5 done u v rest hu hu' ih =>
    rw [List.mem_cons, not_or] at hunits
    exact ih hunits.2 (by simpa using hdone)
  | case6 done u v rest hu hu' ih =>
    rw [List.mem_cons, not_or] at hunits
    refine ih hunits.2 ?_
    rw [List.mem_cons, not_or]
    exact ⟨(charOfUnit_ne_nul (Ne.symm hunits.1) hu hu').symm, hdone⟩

/-- Units without a zero stand for a text without NUL, however they are paired. -/
theorem hasNul_ofUtf16 {units : List UInt16} (h : 0 ∉ units) : hasNul (ofUtf16 units) = false := by
  have := nul_notMem_ofUtf16Onto [] units h (by simp)
  simpa [hasNul, ofUtf16, String.toList_ofList] using this

end Text

/-! ## Stored texts -/

namespace RecordReader

theorem splitUnits_append (done units : List UInt16) (rest : List UInt8) (h : 0 ∉ units) :
    splitUnits done (units.flatMap wordBytes ++ wordBytes 0 ++ rest) =
      some (done.reverse ++ units, rest) := by
  induction units generalizing done with
  | nil => simp [wordBytes, splitUnits, word_bytes]
  | cons u units ih =>
    rw [List.mem_cons, not_or] at h
    simp only [List.flatMap_cons, wordBytes, List.cons_append, List.nil_append, splitUnits,
      word_bytes, if_neg (Ne.symm h.1)]
    have := ih (u :: done) h.2
    simp only [wordBytes, List.cons_append, List.nil_append, List.append_assoc] at this
    simpa using this

/-- The bytes of a text without NUL are split behind the zero that ends it. -/
theorem splitUnits_textBytes {s : String} (h : hasNul s = false) (rest : List UInt8) :
    splitUnits [] (textBytes s ++ rest) = some (Text.toUtf16 s, rest) := by
  rw [textBytes, splitUnits_append [] _ rest (Text.zero_notMem_toUtf16 h)]
  rfl

/-- No unit before the first zero is zero. -/
theorem zero_notMem_of_splitUnits {done units : List UInt16} {bytes rest : List UInt8}
    (h : splitUnits done bytes = some (units, rest)) (hdone : 0 ∉ done) : 0 ∉ units := by
  fun_induction splitUnits done bytes with
  | case1 done low high tail unit hzero =>
    cases h
    simpa using hdone
  | case2 done low high tail unit hne ih =>
    exact ih h (by simpa [hdone] using Ne.symm hne)
  | case3 => cases h

end RecordReader

end GoldTables

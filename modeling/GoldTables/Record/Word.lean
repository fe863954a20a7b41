/-!
# Numbers of two bytes

A 16-bit number is stored with its low byte first.

Results:
* `word_bytes`: a number is read back from its bytes.
-/

namespace GoldTables

/-- The number that a low and a high byte stand for. -/
def word (low high : UInt8) : UInt16 := UInt16.ofNat (low.toNat + 256 * high.toNat)

/-- The low byte of a number. -/
def lowByte (n : UInt16) : UInt8 := UInt8.ofNat (n.toNat % 256)

/-- The high byte of a number. -/
def highByte (n : UInt16) : UInt8 := UInt8.ofNat (n.toNat / 256)

/-- The bytes of a number. -/
def wordBytes (n : UInt16) : List UInt8 := [lowByte n, highByte n]

theorem word_bytes (n : UInt16) : word (lowByte n) (highByte n) = n := by
  have h := n.toNat_lt
  apply UInt16.toNat.inj
  simp only [word, lowByte, highByte, UInt16.toNat_ofNat', UInt8.toNat_ofNat']
  omega

end GoldTables

/-!
# UTF-8

Texts as sequences of bytes.
-/

namespace GoldTables.Text

/-- The bytes of a text. -/
def toUtf8 (s : String) : List UInt8 := s.toList.flatMap String.utf8EncodeChar

/-- The text of a sequence of bytes; `none` if they are not well-formed. -/
def ofUtf8? (bytes : List UInt8) : Option String := String.fromUTF8? ⟨bytes.toArray⟩

end GoldTables.Text

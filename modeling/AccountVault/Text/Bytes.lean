/-!
# Bytes

Text as bytes, and bytes as text where they are well-formed UTF-8.
-/

namespace AccountVault

abbrev Bytes := List UInt8

namespace Text

/-- The bytes of a text. -/
def utf8 (s : String) : Bytes := s.toUTF8.toList

/-- The text that some bytes spell. -/
def decodeUtf8? (bs : Bytes) : Option String := String.fromUTF8? ⟨bs.toArray⟩

end Text

end AccountVault

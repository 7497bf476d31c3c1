/-!
# Bytes

The contents of files, and texts as bytes in UTF-8.
-/

namespace Bindery

/-- The content of a file. -/
abbrev Bytes := List UInt8

/-- The bytes of a text. -/
def Bytes.ofText (s : String) : Bytes := s.toUTF8.data.toList

/-- The text that some bytes spell, if they are one. -/
def Bytes.text? (bs : Bytes) : Option String := String.fromUTF8? ⟨bs.toArray⟩

end Bindery

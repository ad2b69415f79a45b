/-!
# Byte strings

The content of character and large-object values. Bytes carry no encoding of
their own; `ofText` and `text?` are the two crossings between bytes and text.
-/

set_option autoImplicit false

namespace QueryResult

/-- A byte string, in order. -/
abbrev Bytes := List UInt8

namespace Bytes

/-- The UTF-8 bytes of a text. -/
def ofText (text : String) : Bytes :=
  text.toUTF8.data.toList

/-- The text these bytes encode, if they are well-formed UTF-8. -/
def text? (bytes : Bytes) : Option String :=
  String.fromUTF8? ⟨bytes.toArray⟩

end Bytes

end QueryResult

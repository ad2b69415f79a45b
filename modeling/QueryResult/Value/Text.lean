import QueryResult.Fault
import QueryResult.Ieee
import QueryResult.Value.Basic

/-!
# The text of values and rows

The text is a byte string, since character content need not be text in any
encoding. Character content is set in single quotes as it is; of a BLOB only
the length is shown.
-/

set_option autoImplicit false

namespace QueryResult

namespace Value

/-- The bytes of a character or large-object value. -/
def stringContent : Value → Except Fault Bytes
  | .null _ => .error .nullContent
  | .varchar content => .ok content
  | .largeObject _ content _ => .ok content
  | value => .error (.typeMismatch value.type .varchar .noStringContent)

/-- Bytes between single quotes. -/
def quoted (content : Bytes) : Bytes :=
  Bytes.ofText "'" ++ content ++ Bytes.ofText "'"

/-- The text of a value. -/
def text : Value → Bytes
  | .null _ => Bytes.ofText "NULL"
  | .boolean truth => Bytes.ofText (if truth then "True" else "False")
  | .tinyInt number => Bytes.ofText number.toInt.repr
  | .smallInt number => Bytes.ofText number.toInt.repr
  | .integer number => Bytes.ofText number.toInt.repr
  | .bigInt number => Bytes.ofText number.toInt.repr
  | .float bits => Bytes.ofText (Ieee.single.text bits.toNat)
  | .double bits => Bytes.ofText (Ieee.double.text bits.toNat)
  | .varchar content => quoted content
  | .largeObject .blob content _ =>
      Bytes.ofText ("BLOB(" ++ content.length.repr ++ " bytes)")
  | .largeObject .clob content _ => quoted content

end Value

/-- The text of a row: the texts of its values in parentheses, separated by a comma and a
space. -/
def Row.text (row : Row) : Bytes :=
  Bytes.ofText "(" ++ (Bytes.ofText ", ").intercalate (row.map Value.text) ++ Bytes.ofText ")"

end QueryResult

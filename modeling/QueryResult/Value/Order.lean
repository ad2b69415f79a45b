import QueryResult.Fault
import QueryResult.Ieee
import QueryResult.Value.Basic

/-!
# The order of values

Values of one type are totally ordered: NULL first, numbers by size, patterns
that are not numbers after every number, byte strings by their bytes and then
by length. Values of different types have no order.
-/

set_option autoImplicit false

namespace QueryResult.Value

/-- The order of two values of one type. -/
def compareWithinType : Value → Value → Ordering
  | .null _, .null _ => .eq
  | .null _, _ => .lt
  | _, .null _ => .gt
  | .boolean left, .boolean right => Ord.compare left right
  | .tinyInt left, .tinyInt right => Ord.compare left.toInt right.toInt
  | .smallInt left, .smallInt right => Ord.compare left.toInt right.toInt
  | .integer left, .integer right => Ord.compare left.toInt right.toInt
  | .bigInt left, .bigInt right => Ord.compare left.toInt right.toInt
  | .float left, .float right => Ieee.single.order left.toNat right.toNat
  | .double left, .double right => Ieee.double.order left.toNat right.toNat
  | .varchar left, .varchar right => Ord.compare left right
  | .largeObject _ left _, .largeObject _ right _ => Ord.compare left right
  | _, _ => .eq

/-- The order of two values, which must have the same type even if one of them is NULL. -/
protected def compare (left right : Value) : Except Fault Ordering :=
  if left.type = right.type then .ok (left.compareWithinType right)
  else .error (.typeMismatch left.type right.type .notComparable)

end QueryResult.Value

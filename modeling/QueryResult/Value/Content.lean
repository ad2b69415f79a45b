import QueryResult.Value.Basic
import QueryResult.Hash.Xxh64
import QueryResult.Ieee

/-!
# The content of values

`contentEq` is the equality that duplicate elimination needs: NULLs of one type
are equal, both zeros are equal, all patterns that are not numbers are equal,
and a linked large object equals an owned one with the same bytes.
`contentHash` hashes what `contentEq` compares.
-/

set_option autoImplicit false

namespace QueryResult.Value

/-- Equality of content. Values of different types are never equal. -/
def contentEq : Value → Value → Bool
  | .null left, .null right => decide (left = right)
  | .boolean left, .boolean right => decide (left = right)
  | .tinyInt left, .tinyInt right => decide (left = right)
  | .smallInt left, .smallInt right => decide (left = right)
  | .integer left, .integer right => decide (left = right)
  | .bigInt left, .bigInt right => decide (left = right)
  | .float left, .float right => Ieee.single.sameNumber left.toNat right.toNat
  | .double left, .double right => Ieee.double.sameNumber left.toNat right.toNat
  | .varchar left, .varchar right => decide (left = right)
  | .largeObject leftKind left _, .largeObject rightKind right _ =>
      decide (leftKind = rightKind) && decide (left = right)
  | _, _ => false

/-- The hash of content under a seed. The type is hashed first; numbers are hashed as 64-bit
words, signed ones with their sign extended. -/
def contentHash (value : Value) (seed : UInt64) : UInt64 :=
  let typed := Hash.murmur value.type.code.toUInt64 seed
  match value with
  | .null _ => Hash.combine typed 0
  | .boolean truth => Hash.murmur truth.toUInt64 typed
  | .tinyInt number => Hash.murmur number.toInt64.toUInt64 typed
  | .smallInt number => Hash.murmur number.toInt64.toUInt64 typed
  | .integer number => Hash.murmur number.toInt64.toUInt64 typed
  | .bigInt number => Hash.murmur number.toUInt64 typed
  | .float bits => Hash.murmur (Ieee.canonicalSingle bits).toUInt64 typed
  | .double bits => Hash.murmur (Ieee.canonicalDouble bits) typed
  | .varchar content => Hash.seededXxh64 content typed
  | .largeObject _ content _ => Hash.seededXxh64 content typed

end QueryResult.Value

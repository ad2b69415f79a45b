import QueryResult.Fault
import QueryResult.Value.Order

/-!
# Sort orders

A sort order is a list of keys. Rows are compared by the first key that tells
them apart; NULLs are placed by the key, not by the order of values, so a NULL
can be compared with a value of another type.

`OrderBy.arrange` is a total order on all rows that agrees with
`OrderBy.compare` wherever that succeeds. It exists so that rows can be
arranged before it is known that all of them can be compared.
-/

set_option autoImplicit false

namespace QueryResult

inductive Direction
  | ascending
  | descending
  deriving DecidableEq, Repr

/-- An outcome of comparing ascending, turned to a direction. -/
def Direction.apply : Direction → Ordering → Ordering
  | .ascending, outcome => outcome
  | .descending, outcome => outcome.swap

/-- Where a sort key places NULLs. -/
inductive NullPlacement
  /-- First in ascending, last in descending direction. -/
  | byDirection
  | first
  | last
  deriving DecidableEq, Repr

structure SortKey where
  column : Nat
  direction : Direction
  nulls : NullPlacement
  deriving DecidableEq, Repr

namespace SortKey

/-- Whether NULLs come before all other values. -/
def nullsFirst (key : SortKey) : Bool :=
  match key.nulls with
  | .first => true
  | .last => false
  | .byDirection => decide (key.direction = .ascending)

def compareValues (key : SortKey) (left right : Value) : Except Fault Ordering :=
  match left.isNull, right.isNull with
  | true, true => .ok .eq
  | true, false => .ok (if key.nullsFirst then .lt else .gt)
  | false, true => .ok (if key.nullsFirst then .gt else .lt)
  | false, false => (left.compare right).map key.direction.apply

/-- The order of two rows under a key; both must have its column. -/
protected def compare (key : SortKey) (left right : Row) : Except Fault Ordering :=
  match left[key.column]?, right[key.column]? with
  | some leftValue, some rightValue => key.compareValues leftValue rightValue
  | _, _ => .error .sortKeyOutsideRow

/-- A total order of rows that agrees with `compare`: rows without the column come first, and
values of different types stand in the order of their types. -/
def arrange (key : SortKey) (left right : Row) : Ordering :=
  match left[key.column]?, right[key.column]? with
  | none, none => .eq
  | none, some _ => .lt
  | some _, none => .gt
  | some leftValue, some rightValue =>
      match key.compareValues leftValue rightValue with
      | .ok outcome => outcome
      | .error _ => Ord.compare leftValue.type.code rightValue.type.code

theorem arrange_of_compare {key : SortKey} {left right : Row} {outcome : Ordering}
    (compared : key.compare left right = .ok outcome) : key.arrange left right = outcome := by
  unfold SortKey.compare at compared
  unfold arrange
  cases leftFound : left[key.column]? with
  | none => simp [leftFound] at compared
  | some leftValue =>
      cases rightFound : right[key.column]? with
      | none => simp [leftFound, rightFound] at compared
      | some rightValue =>
          simp only [leftFound, rightFound] at compared
          simp only [compared]

end SortKey

/-- The order of two rows under the first key that tells them apart. -/
def compareKeys : List SortKey → Row → Row → Except Fault Ordering
  | [], _, _ => .ok .eq
  | key :: rest, left, right =>
      match key.compare left right with
      | .ok .eq => compareKeys rest left right
      | decided => decided

/-- The total order of two rows under the first key that tells them apart. -/
def arrangeKeys : List SortKey → Row → Row → Ordering
  | [], _, _ => .eq
  | key :: rest, left, right =>
      match key.arrange left right with
      | .eq => arrangeKeys rest left right
      | decided => decided

theorem arrangeKeys_of_compareKeys {keys : List SortKey} {left right : Row} {outcome : Ordering}
    (compared : compareKeys keys left right = .ok outcome) :
    arrangeKeys keys left right = outcome := by
  induction keys with
  | nil =>
      simp only [compareKeys, Except.ok.injEq] at compared
      simpa only [arrangeKeys] using compared
  | cons key rest ih =>
      unfold compareKeys at compared
      unfold arrangeKeys
      cases first : key.compare left right with
      | error fault => simp [first] at compared
      | ok decided =>
          rw [SortKey.arrange_of_compare first]
          rw [first] at compared
          cases decided with
          | lt => exact Except.ok.inj compared
          | eq => exact ih compared
          | gt => exact Except.ok.inj compared

structure OrderBy where
  keys : List SortKey
  deriving DecidableEq, Repr

namespace OrderBy

protected def compare (order : OrderBy) (left right : Row) : Except Fault Ordering :=
  compareKeys order.keys left right

/-- A total order of rows that agrees with `compare` wherever that succeeds. -/
def arrange (order : OrderBy) (left right : Row) : Ordering :=
  arrangeKeys order.keys left right

theorem arrange_of_compare {order : OrderBy} {left right : Row} {outcome : Ordering}
    (compared : order.compare left right = .ok outcome) : order.arrange left right = outcome :=
  arrangeKeys_of_compareKeys compared

end OrderBy

end QueryResult

import QueryResult.Proofs.OrderBy.Preorder

/-!
# Sort orders reversed

The reverse of a sort order has every direction turned and every fixed place of
NULLs exchanged for the other; NULLs placed by the direction follow it. Its
outcomes are those of the order turned around, and it fails where the order does.
So it compares two rows as the order compares them the other way around. One key
that places NULLs by its direction compares rows as their values are compared,
NULLs included, or the other way around.
-/

set_option autoImplicit false

namespace QueryResult

/-! ## The reverse of an order -/

def Direction.reversed : Direction → Direction
  | .ascending => .descending
  | .descending => .ascending

def NullPlacement.reversed : NullPlacement → NullPlacement
  | .byDirection => .byDirection
  | .first => .last
  | .last => .first

def SortKey.reversed (key : SortKey) : SortKey :=
  ⟨key.column, key.direction.reversed, key.nulls.reversed⟩

/-- The order with every key reversed, the most significant one still first. -/
def OrderBy.reversed (order : OrderBy) : OrderBy :=
  ⟨order.keys.map SortKey.reversed⟩

@[simp] theorem SortKey.column_reversed (key : SortKey) : key.reversed.column = key.column := rfl

theorem Direction.apply_reversed (direction : Direction) (outcome : Ordering) :
    direction.reversed.apply outcome = (direction.apply outcome).swap := by
  cases direction with
  | ascending => rfl
  | descending => exact Ordering.swap_swap.symm

theorem SortKey.nullsFirst_reversed (key : SortKey) : key.reversed.nullsFirst = !key.nullsFirst := by
  obtain ⟨column, direction, nulls⟩ := key
  cases nulls with
  | byDirection => cases direction <;> rfl
  | first => rfl
  | last => rfl

/-! ## What the reverse answers -/

namespace SortKey

theorem compareValues_reversed (key : SortKey) (left right : Value) :
    key.reversed.compareValues left right = (key.compareValues left right).map Ordering.swap := by
  unfold compareValues
  cases left.isNull <;> cases right.isNull
  · -- Neither is NULL: the direction turns the order of the values, and a mismatch stays one.
    change (left.compare right).map key.direction.reversed.apply =
      ((left.compare right).map key.direction.apply).map Ordering.swap
    cases left.compare right with
    | error fault => rfl
    | ok outcome => exact congrArg Except.ok (key.direction.apply_reversed outcome)
  · rw [nullsFirst_reversed]
    cases key.nullsFirst <;> rfl
  · rw [nullsFirst_reversed]
    cases key.nullsFirst <;> rfl
  · rfl

theorem compare_reversed (key : SortKey) (left right : Row) :
    key.reversed.compare left right = (key.compare left right).map Ordering.swap := by
  simp only [SortKey.compare, column_reversed]
  cases left[key.column]? with
  | none => rfl
  | some leftValue =>
      cases right[key.column]? with
      | none => rfl
      | some rightValue => exact key.compareValues_reversed leftValue rightValue

end SortKey

theorem compareKeys_reversed (keys : List SortKey) (left right : Row) :
    compareKeys (keys.map SortKey.reversed) left right =
      (compareKeys keys left right).map Ordering.swap := by
  induction keys with
  | nil => rfl
  | cons key rest ih =>
      simp only [List.map_cons, compareKeys, key.compare_reversed left right]
      cases key.compare left right with
      | error fault => rfl
      | ok outcome =>
          cases outcome with
          | lt => rfl
          | eq => exact ih
          | gt => rfl

theorem OrderBy.compare_reversed (order : OrderBy) (left right : Row) :
    order.reversed.compare left right = (order.compare left right).map Ordering.swap :=
  compareKeys_reversed order.keys left right

/-! ## One key that places NULLs by its direction -/

theorem compareKeys_singleton (key : SortKey) (left right : Row) :
    compareKeys [key] left right = key.compare left right := by
  unfold compareKeys
  cases key.compare left right with
  | error fault => rfl
  | ok outcome => cases outcome <;> rfl

/-- Such a key places NULLs where the order of values has them. -/
theorem SortKey.compareValues_ascending {leftValue rightValue : Value} (column : Nat)
    (sameType : leftValue.type = rightValue.type) :
    (SortKey.mk column .ascending .byDirection).compareValues leftValue rightValue =
      leftValue.compare rightValue := by
  rw [Value.compare_of_type_eq sameType]
  unfold compareValues
  cases leftNull : leftValue.isNull <;> cases rightNull : rightValue.isNull
  · rw [Value.compare_of_type_eq sameType]
    rfl
  · obtain ⟨type, rfl⟩ := Value.eq_null_of_isNull rightNull
    rw [Value.compareWithinType_null_right leftNull]
    rfl
  · obtain ⟨type, rfl⟩ := Value.eq_null_of_isNull leftNull
    rw [Value.compareWithinType_null_left rightNull]
    rfl
  · obtain ⟨leftType, rfl⟩ := Value.eq_null_of_isNull leftNull
    obtain ⟨rightType, rfl⟩ := Value.eq_null_of_isNull rightNull
    rfl

namespace OrderBy

theorem compare_single {key : SortKey} {left right : Row} {leftValue rightValue : Value}
    (leftFound : left[key.column]? = some leftValue)
    (rightFound : right[key.column]? = some rightValue) :
    (OrderBy.mk [key]).compare left right = key.compareValues leftValue rightValue := by
  unfold OrderBy.compare
  rw [compareKeys_singleton]
  unfold SortKey.compare
  rw [leftFound, rightFound]

/-- The reverse of an order compares rows that have all columns as the order compares them the other
way around: both succeed with one outcome, or both meet a mismatch. One key that places NULLs by its
direction orders rows whose values have one type as the values are ordered, NULLs included, and in
descending direction in the opposite way. -/
theorem reversed_order_mirrors :
    (∀ (order : OrderBy) (left right : Row), (∀ key ∈ order.keys, key.column < left.length) →
      (∀ key ∈ order.keys, key.column < right.length) →
        (∃ outcome, order.reversed.compare left right = .ok outcome ∧
          order.compare right left = .ok outcome) ∨
        ∃ found expected,
          order.reversed.compare left right =
            .error (.typeMismatch found expected .notComparable) ∧
          order.compare right left = .error (.typeMismatch expected found .notComparable)) ∧
    ∀ (left right : Row) (column : Nat) (leftValue rightValue : Value),
      left[column]? = some leftValue → right[column]? = some rightValue →
      leftValue.type = rightValue.type →
        ∃ outcome, leftValue.compare rightValue = .ok outcome ∧
          (OrderBy.mk [⟨column, .ascending, .byDirection⟩]).compare left right = .ok outcome ∧
          (OrderBy.mk [⟨column, .descending, .byDirection⟩]).compare left right =
            .ok outcome.swap := by
  constructor
  · intro order left right leftColumns rightColumns
    rw [order.compare_reversed]
    cases compared : order.compare right left with
    | ok outcome =>
        refine .inl ⟨outcome, ?_, rfl⟩
        rw [compare_swapped compared]
        exact congrArg Except.ok Ordering.swap_swap
    | error fault =>
        obtain ⟨expected, found, rfl⟩ := compare_mismatch_of_error rightColumns leftColumns compared
        have mirrored : order.compare left right =
            .error (.typeMismatch found expected .notComparable) :=
          compareKeys_eq_mismatch_iff.mpr (compareKeys_eq_mismatch_iff.mp compared).symm
        refine .inr ⟨found, expected, ?_, rfl⟩
        rw [mirrored]
        rfl
  · intro left right column leftValue rightValue leftFound rightFound sameType
    let ascending : OrderBy := ⟨[⟨column, .ascending, .byDirection⟩]⟩
    have compared : leftValue.compare rightValue = .ok (leftValue.compareWithinType rightValue) :=
      Value.compare_of_type_eq sameType
    have answer : ascending.compare left right = .ok (leftValue.compareWithinType rightValue) := by
      rw [compare_single leftFound rightFound, SortKey.compareValues_ascending column sameType,
        compared]
    refine ⟨_, compared, answer, ?_⟩
    -- The descending key is the reverse of the ascending one.
    change ascending.reversed.compare left right = _
    rw [compare_reversed, answer]
    rfl

theorem reversed_order_mirrors_sample :
    let order : OrderBy := ⟨[⟨0, .descending, .byDirection⟩, ⟨1, .ascending, .first⟩]⟩
    let early : Row := [.null .varchar, .null .integer]
    let late : Row := [.null .integer, .integer 3]
    let clashing : Row := [.null .integer, .varchar [97]]
    order.reversed.compare late early = .ok .lt ∧
      order.reversed.compare late clashing =
        .error (.typeMismatch .integer .varchar .notComparable) ∧
      (OrderBy.mk [⟨1, .ascending, .byDirection⟩]).compare early late = .ok .lt ∧
      (OrderBy.mk [⟨1, .descending, .byDirection⟩]).compare early late = .ok .gt := by
  intro order early late clashing
  obtain ⟨mirrors, single⟩ := reversed_order_mirrors
  have before : order.compare early late = .ok .lt := by decide
  have clash : order.compare clashing late =
      .error (.typeMismatch .varchar .integer .notComparable) := by decide
  refine ⟨?_, ?_, ?_⟩
  · rcases mirrors order late early (by decide) (by decide) with
      ⟨outcome, reversed, answer⟩ | ⟨found, expected, _, failed⟩
    · cases before.symm.trans answer
      exact reversed
    · cases before.symm.trans failed
  · rcases mirrors order late clashing (by decide) (by decide) with
      ⟨outcome, _, answer⟩ | ⟨found, expected, reversed, failed⟩
    · cases clash.symm.trans answer
    · cases clash.symm.trans failed
      exact reversed
  · obtain ⟨outcome, compared, ascending, descending⟩ :=
      single early late 1 (.null .integer) (.integer 3) rfl rfl rfl
    cases compared
    exact ⟨ascending, descending⟩

end OrderBy

end QueryResult

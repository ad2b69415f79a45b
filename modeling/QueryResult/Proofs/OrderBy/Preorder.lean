import Mathlib.Logic.Pairwise
import Mathlib.Order.Defs.Unbundled
import QueryResult.Proofs.OrderBy.Mismatch
import QueryResult.Proofs.Value.Order

/-!
# Where rows can be compared, their order is total

Rows that can be compared, each with each, are totally preordered by a sort
order: a row ties with itself, exchanging two rows turns the outcome around, and
the outcomes are transitive. With ties settled by position, no two positions are
left equal.

Two rows that have all columns cannot be compared exactly if they clash under a
key, having values of different types there, and tie under every key before it.
They then cannot be compared the other way around either.
-/

set_option autoImplicit false

namespace QueryResult

/-! ## Ties and clashes -/

namespace SortKey

variable {key : SortKey} {left right : Row} {found expected : ValueType}

/-- The values of two rows under a key are both NULL, or compare equal. -/
def Ties (key : SortKey) (left right : Row) : Prop :=
  ∃ leftValue rightValue, left[key.column]? = some leftValue ∧
    right[key.column]? = some rightValue ∧
    (leftValue.isNull = true ∧ rightValue.isNull = true ∨ leftValue.compare rightValue = .ok .eq)

/-- Neither value of two rows under a key is NULL, and their types differ. -/
def Clashes (key : SortKey) (left right : Row) (found expected : ValueType) : Prop :=
  ∃ leftValue rightValue, left[key.column]? = some leftValue ∧
    right[key.column]? = some rightValue ∧
    leftValue.isNull = false ∧ rightValue.isNull = false ∧
    leftValue.type = found ∧ rightValue.type = expected ∧ found ≠ expected

theorem compareValues_eq_iff {leftValue rightValue : Value} :
    key.compareValues leftValue rightValue = .ok .eq ↔
      leftValue.isNull = true ∧ rightValue.isNull = true ∨
        leftValue.compare rightValue = .ok .eq := by
  unfold compareValues
  cases leftNull : leftValue.isNull <;> cases rightNull : rightValue.isNull
  · cases leftValue.compare rightValue with
    | error fault => simp [Except.map]
    | ok outcome => cases direction : key.direction <;> cases outcome <;>
        simp [Except.map, Direction.apply]
  · obtain ⟨type, rfl⟩ := Value.eq_null_of_isNull rightNull
    cases key.nullsFirst <;> simp [Value.compare_eq_iff, Value.contentEq_null_right leftNull]
  · obtain ⟨type, rfl⟩ := Value.eq_null_of_isNull leftNull
    cases key.nullsFirst <;> simp [Value.compare_eq_iff, Value.contentEq_null_left rightNull]
  · simp

theorem compareValues_eq_error_iff {leftValue rightValue : Value} {fault : Fault} :
    key.compareValues leftValue rightValue = .error fault ↔
      leftValue.isNull = false ∧ rightValue.isNull = false ∧
        leftValue.compare rightValue = .error fault := by
  unfold compareValues
  cases leftValue.isNull <;> cases rightValue.isNull
  · cases leftValue.compare rightValue <;> simp [Except.map]
  all_goals simp

theorem compare_eq_iff_ties : key.compare left right = .ok .eq ↔ key.Ties left right := by
  unfold SortKey.compare Ties
  cases left[key.column]? with
  | none => simp
  | some leftValue =>
      cases right[key.column]? with
      | none => simp
      | some rightValue => simp [compareValues_eq_iff]

theorem compare_eq_mismatch_iff_clashes :
    key.compare left right = .error (.typeMismatch found expected .notComparable) ↔
      key.Clashes left right found expected := by
  unfold SortKey.compare Clashes
  cases left[key.column]? with
  | none => simp
  | some leftValue =>
      cases right[key.column]? with
      | none => simp
      | some rightValue =>
          dsimp only
          rw [compareValues_eq_error_iff, Value.compare_eq_error_iff]
          constructor
          · rintro ⟨leftPresent, rightPresent, differ, same⟩
            cases same
            exact ⟨leftValue, rightValue, rfl, rfl, leftPresent, rightPresent, rfl, rfl, differ⟩
          · rintro ⟨_, _, leftFound, rightFound, leftPresent, rightPresent, rfl, rfl, differ⟩
            cases leftFound
            cases rightFound
            exact ⟨leftPresent, rightPresent, differ, rfl⟩

theorem Ties.symm (ties : key.Ties left right) : key.Ties right left :=
  compare_eq_iff_ties.mp (compare_swap (compare_eq_iff_ties.mpr ties))

theorem Clashes.symm (clashes : key.Clashes left right found expected) :
    key.Clashes right left expected found := by
  obtain ⟨leftValue, rightValue, leftFound, rightFound, leftPresent, rightPresent, leftType, rightType,
    differ⟩ := clashes
  exact ⟨rightValue, leftValue, rightFound, leftFound, rightPresent, leftPresent, rightType, leftType,
    differ.symm⟩

end SortKey

/-- Two rows clash under one of the keys and tie under all keys before it. -/
def ClashAfterTies (keys : List SortKey) (left right : Row) (found expected : ValueType) : Prop :=
  ∃ before key after, keys = before ++ key :: after ∧ key.Clashes left right found expected ∧
    ∀ earlier ∈ before, earlier.Ties left right

theorem ClashAfterTies.symm {keys : List SortKey} {left right : Row} {found expected : ValueType}
    (clash : ClashAfterTies keys left right found expected) :
    ClashAfterTies keys right left expected found := by
  obtain ⟨before, key, after, split, clashes, ties⟩ := clash
  exact ⟨before, key, after, split, clashes.symm, fun earlier listed => (ties earlier listed).symm⟩

theorem compareKeys_eq_mismatch_iff {keys : List SortKey} {left right : Row}
    {found expected : ValueType} :
    compareKeys keys left right = .error (.typeMismatch found expected .notComparable) ↔
      ClashAfterTies keys left right found expected := by
  -- Both directions walk down the keys that tie, to the one under which the rows clash.
  constructor
  · intro failed
    induction keys with
    | nil => cases failed
    | cons key rest ih =>
        unfold compareKeys at failed
        cases own : key.compare left right with
        | error fault =>
            rw [own] at failed
            cases failed
            exact ⟨[], key, rest, rfl, SortKey.compare_eq_mismatch_iff_clashes.mp own, by simp⟩
        | ok outcome =>
            rw [own] at failed
            cases outcome with
            | lt => cases failed
            | gt => cases failed
            | eq =>
                obtain ⟨before, clashing, after, split, clashes, ties⟩ := ih failed
                refine ⟨key :: before, clashing, after, by rw [split, List.cons_append], clashes, ?_⟩
                exact List.forall_mem_cons.mpr ⟨SortKey.compare_eq_iff_ties.mp own, ties⟩
  · rintro ⟨before, key, after, rfl, clashes, ties⟩
    induction before with
    | nil =>
        simp only [List.nil_append, compareKeys, SortKey.compare_eq_mismatch_iff_clashes.mpr clashes]
    | cons first before ih =>
        obtain ⟨firstTies, otherTies⟩ := List.forall_mem_cons.mp ties
        simp only [List.cons_append, compareKeys, SortKey.compare_eq_iff_ties.mpr firstTies]
        exact ih otherTies

/-! ## The order of rows -/

namespace OrderBy

variable {order : OrderBy} {rows : List Row} {left right : Row}

theorem compare_self_eq {row : Row} (columns : ∀ key ∈ order.keys, key.column < row.length) :
    order.compare row row = .ok .eq := by
  obtain ⟨outcome, compared⟩ := compare_self columns
  have self : order.arrange row row = .eq := Std.ReflCmp.compare_self
  rw [compared, ← arrange_of_compare compared, self]

theorem compare_swapped {outcome : Ordering} (compared : order.compare left right = .ok outcome) :
    order.compare right left = .ok outcome.swap := by
  obtain ⟨other, found⟩ := compare_swap compared
  have mirrored : order.arrange right left = (order.arrange left right).swap :=
    Std.OrientedCmp.eq_swap
  rw [arrange_of_compare compared, arrange_of_compare found] at mirrored
  rw [found, mirrored]

theorem compare_mismatch_of_error {fault : Fault}
    (leftColumns : ∀ key ∈ order.keys, key.column < left.length)
    (rightColumns : ∀ key ∈ order.keys, key.column < right.length)
    (failed : order.compare left right = .error fault) :
    ∃ found expected, fault = .typeMismatch found expected .notComparable := by
  have met : order.MetBy [left, right] fault := ⟨left, by simp, right, by simp, failed⟩
  refine met.typeMismatch fun row held => ?_
  rcases List.mem_pair.mp held with rfl | rfl
  · exact leftColumns
  · exact rightColumns

/-- Of two positions of rows, the row at the first comes before the row at the second: it is less, or
it ties and its position is the earlier one. -/
def Earlier (order : OrderBy) (rows : List Row) (left right : Fin rows.length) : Prop :=
  order.comesBefore (rows[left], left) (rows[right], right) = .ok true

theorem Comparable.earlier_iff (comparable : order.Comparable rows) {left right : Fin rows.length} :
    order.Earlier rows left right ↔
      order.positional (rows[left], left) (rows[right], right) = .lt := by
  rw [Earlier, comparable.comesBefore_eq (List.getElem_mem left.isLt) (List.getElem_mem right.isLt),
    Except.ok.injEq, Ordering.isLT_iff_eq_lt]

theorem Comparable.isStrictTotalOrder (comparable : order.Comparable rows) :
    IsStrictTotalOrder (Fin rows.length) (order.Earlier rows) where
  irrefl := by
    intro position earlier
    have self : order.positional (rows[position], position) (rows[position], position) = .eq :=
      Std.ReflCmp.compare_self
    rw [comparable.earlier_iff, self] at earlier
    cases earlier
  trans := by
    intro first second third
    simp only [comparable.earlier_iff]
    exact Std.TransCmp.lt_trans
  trichotomous := by
    intro left right notEarlier notLater
    rw [comparable.earlier_iff] at notEarlier notLater
    cases compared : order.positional (rows[left], left) (rows[right], right) with
    | lt => exact absurd compared notEarlier
    | gt => exact absurd (Std.OrientedCmp.lt_of_gt compared) notLater
    | eq => exact Fin.ext (position_eq_of_positional compared)

theorem comparable_of_set {held : Set Row}
    (columns : ∀ row ∈ held, ∀ key ∈ order.keys, key.column < row.length)
    (pairwise : held.Pairwise fun left right => ∃ outcome, order.compare left right = .ok outcome)
    (within : ∀ row ∈ rows, row ∈ held) : order.Comparable rows := by
  intro left leftHeld right rightHeld
  by_cases same : left = right
  · exact ⟨.eq, same ▸ compare_self_eq (columns left (within left leftHeld))⟩
  · exact pairwise (within left leftHeld) (within right rightHeld) same

/-- Rows that have all columns, no two of which mismatch, are totally preordered, and with ties
settled by position the positions in any list of them are in a strict total order. Two rows that have
all columns mismatch exactly if they clash under a key and tie under those before it, and then the
other way around as well. -/
theorem compare_total_preorder {held : Set Row}
    (columns : ∀ row ∈ held, ∀ key ∈ order.keys, key.column < row.length) :
    ((held.Pairwise fun left right => ∃ outcome, order.compare left right = .ok outcome) →
      (∀ row ∈ held, order.compare row row = .ok .eq) ∧
      (∀ left ∈ held, ∀ right ∈ held, ∃ outcome, order.compare left right = .ok outcome ∧
        order.compare right left = .ok outcome.swap) ∧
      (∀ first ∈ held, ∀ second ∈ held, ∀ third ∈ held,
        order.AtMost first second → order.AtMost second third → order.AtMost first third) ∧
      ∀ rows : List Row, (∀ row ∈ rows, row ∈ held) →
        (∀ left right : Fin rows.length, ∃ answer,
          order.comesBefore (rows[left], left) (rows[right], right) = .ok answer) ∧
        IsStrictTotalOrder (Fin rows.length) (order.Earlier rows)) ∧
    ∀ left ∈ held, ∀ right ∈ held,
      ((∃ outcome, order.compare left right = .ok outcome) ∨
        ∃ found expected,
          order.compare left right = .error (.typeMismatch found expected .notComparable)) ∧
      ∀ found expected,
        (order.compare left right = .error (.typeMismatch found expected .notComparable) ↔
          ClashAfterTies order.keys left right found expected) ∧
        (order.compare left right = .error (.typeMismatch found expected .notComparable) →
          order.compare right left = .error (.typeMismatch expected found .notComparable)) := by
  refine ⟨fun pairwise => ⟨?self, ?swap, fun _ _ _ _ _ _ => AtMost.trans, ?positions⟩,
    fun left leftHeld right rightHeld => ⟨?outcome, fun found expected =>
      ⟨compareKeys_eq_mismatch_iff, ?both⟩⟩⟩
  case self => exact fun row listed => compare_self_eq (columns row listed)
  case swap =>
    intro left leftHeld right rightHeld
    have comparable : order.Comparable [left, right] := by
      refine comparable_of_set columns pairwise fun row listed => ?_
      rcases List.mem_pair.mp listed with rfl | rfl
      · exact leftHeld
      · exact rightHeld
    obtain ⟨outcome, compared⟩ := comparable left (by simp) right (by simp)
    exact ⟨outcome, compared, compare_swapped compared⟩
  case positions =>
    intro rows within
    have comparable := comparable_of_set columns pairwise within
    exact ⟨fun left right => ⟨_, comparable.comesBefore_eq (List.getElem_mem left.isLt)
      (List.getElem_mem right.isLt)⟩, comparable.isStrictTotalOrder⟩
  case outcome =>
    cases compared : order.compare left right with
    | ok outcome => exact .inl ⟨outcome, rfl⟩
    | error fault =>
        obtain ⟨found, expected, rfl⟩ := compare_mismatch_of_error (columns left leftHeld)
          (columns right rightHeld) compared
        exact .inr ⟨found, expected, rfl⟩
  case both =>
    intro failed
    exact compareKeys_eq_mismatch_iff.mpr (compareKeys_eq_mismatch_iff.mp failed).symm

theorem compare_total_preorder_sample :
    let order : OrderBy := ⟨[⟨0, .descending, .first⟩, ⟨1, .ascending, .last⟩]⟩
    let rows : List Row :=
      [[.integer 2, .double 0x8000000000000000], [.null .varchar, .double 0x7ff8000000000001],
        [.integer 2, .double 0], [.null .integer, .null .clob]]
    let clashing : Row := [.integer 2, .varchar [97]]
    IsStrictTotalOrder (Fin rows.length) (order.Earlier rows) ∧
      ClashAfterTies order.keys [.integer 2, .double 0] clashing .double .varchar ∧
      order.compare clashing [.integer 2, .double 0] =
        .error (.typeMismatch .varchar .double .notComparable) := by
  intro order rows clashing
  let comparable : Set Row := {row | row ∈ rows}
  let all : Set Row := {row | row ∈ clashing :: rows}
  have allColumns : ∀ row ∈ clashing :: rows, ∀ key ∈ order.keys, key.column < row.length := by
    decide
  have columns : ∀ row ∈ comparable, ∀ key ∈ order.keys, key.column < row.length :=
    fun row listed => allColumns row (.tail _ listed)
  have compared : ∀ left ∈ rows, ∀ right ∈ rows,
      order.compare left right = .ok (order.arrange left right) := by decide
  have failed : order.compare [.integer 2, .double 0] clashing =
      .error (.typeMismatch .double .varchar .notComparable) := by decide
  obtain ⟨_, _, _, positions⟩ := (compare_total_preorder columns).1
    fun left leftHeld right rightHeld _ => ⟨_, compared left leftHeld right rightHeld⟩
  have plainHeld : [.integer 2, .double 0] ∈ all := .tail _ (.tail _ (.tail _ (.head _)))
  have clashingHeld : clashing ∈ all := .head _
  obtain ⟨_, mismatches⟩ :=
    (compare_total_preorder (show ∀ row ∈ all, _ from allColumns)).2 _ plainHeld _ clashingHeld
  obtain ⟨clash, both⟩ := mismatches .double .varchar
  exact ⟨(positions rows fun _ listed => listed).2, clash.mp failed, both failed⟩

end OrderBy

end QueryResult

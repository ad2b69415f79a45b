import Mathlib.Algebra.Group.Nat.Defs
import QueryResult.Proofs.OrderBy.Arrangement
import QueryResult.Proofs.Value.Content
import QueryResult.Value.Text

/-!
# The order of values is total

Patterns are ordered as the numbers they stand for: the significand scaled by its
exponent grows with the magnitude, so that signed magnitudes can be compared in
place of numbers. Byte strings are ordered by the first byte at which they
differ, and by length if there is none.

Two values can be compared if and only if they have one type, and all values of
one type are totally ordered. NULL is the least of them, a pattern for no number
the greatest, and values that compare equal are those of equal content.
-/

set_option autoImplicit false

namespace QueryResult

/-! ## Numbers -/

namespace Ieee.Format

variable {format : Format} {bits left right : Nat}

/-- The number without its sign, counted in least positive numbers. -/
def size (format : Format) (bits : Nat) : Nat :=
  (format.significand bits).1 * 2 ^ (format.significand bits).2

/-- The number a pattern stands for, counted in least positive numbers. Infinity counts as the
number that would follow the greatest finite one. -/
def number (format : Format) (bits : Nat) : Int :=
  if format.isNegative bits then -(format.size bits : Int) else format.size bits

/-- The numbers with one exponent stay below the power of two at which the next ones begin. -/
theorem size_lt (hidden : 0 < format.hiddenBit) :
    format.size bits < format.hiddenBit * 2 ^ (format.magnitude bits / format.hiddenBit) := by
  have fraction := Nat.mod_lt (format.magnitude bits) hidden
  unfold size significand
  dsimp only
  split
  · rename_i subnormal
    simpa [subnormal] using fraction
  · rename_i normal
    obtain ⟨exponent, found⟩ := Nat.exists_eq_succ_of_ne_zero normal
    rw [found, Nat.succ_sub_one, Nat.pow_succ, Nat.mul_comm (2 ^ exponent), ← Nat.mul_assoc]
    exact Nat.mul_lt_mul_of_pos_right (by omega) (Nat.two_pow_pos exponent)

theorem le_size (normal : format.magnitude bits / format.hiddenBit ≠ 0) :
    format.hiddenBit * 2 ^ (format.magnitude bits / format.hiddenBit - 1) ≤ format.size bits := by
  simp only [size, significand, normal, if_false]
  exact Nat.mul_le_mul_right _ (Nat.le_add_right _ _)

theorem size_lt_of_magnitude_lt (hidden : 0 < format.hiddenBit)
    (less : format.magnitude left < format.magnitude right) :
    format.size left < format.size right := by
  have ascending : format.magnitude left / format.hiddenBit ≤
      format.magnitude right / format.hiddenBit := Nat.div_le_div_right (Nat.le_of_lt less)
  -- Under one exponent the fractions decide; else the next power of two lies between the numbers.
  rcases Nat.eq_or_lt_of_le ascending with same | smaller
  · have fractions : format.magnitude left % format.hiddenBit <
        format.magnitude right % format.hiddenBit := by
      have leftParts := Nat.div_add_mod (format.magnitude left) format.hiddenBit
      have rightParts := Nat.div_add_mod (format.magnitude right) format.hiddenBit
      rw [same] at leftParts
      omega
    simp only [size, significand, same]
    split
    · simpa using fractions
    · exact Nat.mul_lt_mul_of_pos_right (by omega) (Nat.two_pow_pos _)
  · calc format.size left
        < format.hiddenBit * 2 ^ (format.magnitude left / format.hiddenBit) := size_lt hidden
      _ ≤ format.hiddenBit * 2 ^ (format.magnitude right / format.hiddenBit - 1) :=
          Nat.mul_le_mul_left _ (Nat.pow_le_pow_right (by decide) (Nat.le_sub_one_of_lt smaller))
      _ ≤ format.size right := le_size (Nat.ne_zero_of_lt smaller)

theorem size_lt_iff (hidden : 0 < format.hiddenBit) :
    format.size left < format.size right ↔ format.magnitude left < format.magnitude right := by
  refine ⟨fun less => ?_, size_lt_of_magnitude_lt hidden⟩
  rcases Nat.lt_trichotomy (format.magnitude left) (format.magnitude right) with below | same | above
  · exact below
  · simp [size, significand, same] at less
  · exact absurd less (Nat.lt_asymm (size_lt_of_magnitude_lt hidden above))

theorem size_eq_zero_iff (hidden : 0 < format.hiddenBit) :
    format.size bits = 0 ↔ format.magnitude bits = 0 := by
  have zero : format.magnitude 0 = 0 := Nat.zero_mod _
  have sizeZero : format.size 0 = 0 := by simp [size, significand, zero]
  have above : format.size 0 < format.size bits ↔ format.magnitude 0 < format.magnitude bits :=
    size_lt_iff hidden
  rw [zero, sizeZero] at above
  omega

/-- Signed magnitudes are ordered as the numbers the patterns stand for. -/
theorem signedMagnitude_lt_iff (hidden : 0 < format.hiddenBit) :
    format.signedMagnitude left < format.signedMagnitude right ↔
      format.number left < format.number right := by
  have below : format.size left < format.size right ↔ _ := size_lt_iff hidden
  have above : format.size right < format.size left ↔ _ := size_lt_iff hidden
  have leftZero : format.size left = 0 ↔ _ := size_eq_zero_iff hidden
  have rightZero : format.size right = 0 ↔ _ := size_eq_zero_iff hidden
  unfold signedMagnitude number
  split <;> split <;> omega

theorem compare_number (hidden : 0 < format.hiddenBit) :
    compare (format.signedMagnitude left) (format.signedMagnitude right) =
      compare (format.number left) (format.number right) := by
  have below : _ ↔ format.number left < format.number right := signedMagnitude_lt_iff hidden
  have above : _ ↔ format.number right < format.number left := signedMagnitude_lt_iff hidden
  cases compared : compare (format.number left) (format.number right) with
  | lt => exact Int.compare_eq_lt.mpr (below.mpr (Int.compare_eq_lt.mp compared))
  | gt => exact Int.compare_eq_gt.mpr (above.mpr (Int.compare_eq_gt.mp compared))
  | eq =>
      have same := Int.compare_eq_eq.mp compared
      exact Int.compare_eq_eq.mpr (by omega)

/-- Patterns that stand for numbers are ordered as these are. -/
theorem order_of_numbers (hidden : 0 < format.hiddenBit) (leftNumber : format.isNaN left = false)
    (rightNumber : format.isNaN right = false) :
    format.order left right = compare (format.number left) (format.number right) := by
  rw [compare_signedMagnitude format leftNumber rightNumber, compare_number hidden]

theorem order_of_isNaN (number : format.isNaN left = false) (odd : format.isNaN right = true) :
    format.order left right = .lt := by
  simp only [order, number, odd, Bool.false_or, if_true]
  rfl

theorem magnitude_eq (fits : bits < 2 * format.signWeight) :
    format.magnitude bits = if format.isNegative bits then bits - format.signWeight else bits := by
  unfold magnitude isNegative
  by_cases negative : format.signWeight ≤ bits
  · rw [Nat.mod_eq_sub_mod negative, Nat.mod_eq_of_lt (by omega)]
    simp [negative]
  · rw [Nat.mod_eq_of_lt (by omega)]
    simp [negative]

theorem signedMagnitude_eq_iff (leftFits : left < 2 * format.signWeight)
    (rightFits : right < 2 * format.signWeight) :
    format.signedMagnitude left = format.signedMagnitude right ↔
      left = right ∨ format.isZero left = true ∧ format.isZero right = true := by
  simp only [signedMagnitude, isZero, magnitude_eq leftFits, magnitude_eq rightFits, isNegative,
    decide_eq_true_eq]
  split <;> split <;> omega

/-- Patterns of a format that compare equal are those of the same number. -/
theorem order_eq_iff (leftFits : left < 2 * format.signWeight)
    (rightFits : right < 2 * format.signWeight) :
    format.order left right = .eq ↔ format.sameNumber left right = true := by
  cases leftOdd : format.isNaN left <;> cases rightOdd : format.isNaN right
  · rw [compare_signedMagnitude format leftOdd rightOdd, Int.compare_eq_eq,
      signedMagnitude_eq_iff leftFits rightFits]
    simp [sameNumber, numberEq, leftOdd, rightOdd]
  all_goals simp [order, sameNumber, numberEq, leftOdd, rightOdd]

end Ieee.Format

/-! ## Byte strings -/

namespace Bytes

/-- A byte string comes before another: it is the beginning of the other, or its byte is less where
they first differ. -/
def Before (left right : Bytes) : Prop :=
  (∃ byte rest, right = left ++ byte :: rest) ∨
    ∃ (common : Bytes) (lower higher : UInt8) (leftRest rightRest : Bytes),
      left = common ++ lower :: leftRest ∧ right = common ++ higher :: rightRest ∧
        lower.toNat < higher.toNat

theorem before_cons_cons {byte other : UInt8} {rest others : Bytes} :
    Before (byte :: rest) (other :: others) ↔
      byte.toNat < other.toNat ∨ byte = other ∧ Before rest others := by
  constructor
  · rintro (⟨next, behind, longer⟩ | ⟨common, lower, higher, leftRest, rightRest, left, right, less⟩)
    · cases longer
      exact .inr ⟨rfl, .inl ⟨next, behind, rfl⟩⟩
    · cases common with
      | nil =>
          cases left
          cases right
          exact .inl less
      | cons first common =>
          cases left
          cases right
          exact .inr ⟨rfl, .inr ⟨common, lower, higher, leftRest, rightRest, rfl, rfl, less⟩⟩
  · rintro (less | ⟨rfl, ⟨next, behind, rfl⟩ |
      ⟨common, lower, higher, leftRest, rightRest, rfl, rfl, less⟩⟩)
    · exact .inr ⟨[], byte, other, rest, others, rfl, rfl, less⟩
    · exact .inl ⟨next, behind, rfl⟩
    · exact .inr ⟨byte :: common, lower, higher, leftRest, rightRest, rfl, rfl, less⟩

theorem compare_eq_lt_iff {left right : Bytes} :
    compare left right = .lt ↔ Before left right := by
  induction left generalizing right with
  | nil =>
      cases right with
      | nil => simp [Before]
      | cons byte rest => simp [Before]
  | cons byte rest ih =>
      cases right with
      | nil => simp [Before]
      | cons other others =>
          rw [List.compare_cons_cons, Ordering.then_eq_lt, ih, before_cons_cons,
            Std.LawfulEqCmp.compare_eq_iff_eq]
          refine or_congr ?_ .rfl
          rw [Std.compare_eq_lt, UInt8.lt_iff_toNat_lt]

end Bytes

/-! ## Values -/

namespace Value

variable {left right : Value}

theorem compare_of_type_eq (sameType : left.type = right.type) :
    left.compare right = .ok (left.compareWithinType right) := by
  rw [Value.compare, if_pos sameType]

theorem compare_eq_error_iff {fault : Fault} :
    left.compare right = .error fault ↔
      left.type ≠ right.type ∧ fault = .typeMismatch left.type right.type .notComparable := by
  unfold Value.compare
  by_cases sameType : left.type = right.type
  · simp [sameType]
  · simp [sameType, eq_comm]

theorem compareWithinType_swap (sameType : left.type = right.type) :
    right.compareWithinType left = (left.compareWithinType right).swap := by
  rw [compareWithinType_eq_compareRank sameType, compareWithinType_eq_compareRank sameType.symm]
  exact Std.OrientedCmp.eq_swap

/-- The values can be compared, and the first is not after the second. -/
def AtMost (left right : Value) : Prop :=
  ∃ outcome, left.compare right = .ok outcome ∧ outcome.isLE = true

theorem atMost_iff :
    AtMost left right ↔ left.type = right.type ∧ (compareRank left right).isLE = true := by
  by_cases sameType : left.type = right.type
  · simp [AtMost, compare_of_type_eq sameType, compareWithinType_eq_compareRank sameType, sameType]
  · simp [AtMost, compare_eq_error_iff.mpr ⟨sameType, rfl⟩, sameType]

theorem AtMost.trans {first second third : Value} (atMost : AtMost first second)
    (atMostNext : AtMost second third) : AtMost first third := by
  obtain ⟨sameType, ascends⟩ := atMost_iff.mp atMost
  obtain ⟨sameTypeNext, ascendsNext⟩ := atMost_iff.mp atMostNext
  exact atMost_iff.mpr ⟨sameType.trans sameTypeNext, Std.TransCmp.isLE_trans ascends ascendsNext⟩

theorem contentEq_null_left {type : ValueType} (present : right.isNull = false) :
    (Value.null type).contentEq right = false := by
  cases right <;> first | rfl | cases present

theorem contentEq_null_right {type : ValueType} (present : left.isNull = false) :
    left.contentEq (.null type) = false := by
  cases left <;> first | rfl | cases present

/-- Values that compare equal are those of equal content. -/
theorem compareWithinType_eq_iff (sameType : left.type = right.type) :
    left.compareWithinType right = .eq ↔ left.contentEq right = true := by
  cases ofOneType sameType with
  | nulls type => simp [compareWithinType, contentEq]
  | nullLeft present => simp [compareWithinType_null_left present, contentEq_null_left present]
  | nullRight present => simp [compareWithinType_null_right present, contentEq_null_right present]
  | boolean left right => cases left <;> cases right <;> decide
  | tinyInt left right => simp [compareWithinType, contentEq, Int8.toInt_inj]
  | smallInt left right => simp [compareWithinType, contentEq, Int16.toInt_inj]
  | integer left right => simp [compareWithinType, contentEq, Int32.toInt_inj]
  | bigInt left right => simp [compareWithinType, contentEq, Int64.toInt_inj]
  | float left right =>
      exact Ieee.Format.order_eq_iff left.toNat_lt right.toNat_lt
  | double left right =>
      exact Ieee.Format.order_eq_iff left.toNat_lt right.toNat_lt
  | varchar left right => simp [compareWithinType, contentEq]
  | largeObject kind left right => simp [compareWithinType, contentEq]

theorem type_canonical (value : Value) : value.canonical.type = value.type := by
  cases value <;> rfl

theorem type_eq_of_contentEq (equal : left.contentEq right = true) : left.type = right.type := by
  rw [← type_canonical left, contentEq_iff.mp equal, type_canonical]

theorem compare_eq_iff : left.compare right = .ok .eq ↔ left.contentEq right = true := by
  by_cases sameType : left.type = right.type
  · rw [compare_of_type_eq sameType, Except.ok.injEq, compareWithinType_eq_iff sameType]
  · rw [compare_eq_error_iff.mpr ⟨sameType, rfl⟩]
    simp only [reduceCtorEq, false_iff]
    exact fun equal => sameType (type_eq_of_contentEq equal)

/-- The number of a value, of a floating-point one counted in least positive numbers. -/
def number? : Value → Option Int
  | .boolean truth => some truth.toInt
  | .tinyInt number => some number.toInt
  | .smallInt number => some number.toInt
  | .integer number => some number.toInt
  | .bigInt number => some number.toInt
  | .float bits =>
      if Ieee.single.isNaN bits.toNat then none else some (Ieee.single.number bits.toNat)
  | .double bits =>
      if Ieee.double.isNaN bits.toNat then none else some (Ieee.double.number bits.toNat)
  | _ => none

/-- Whether a value is a pattern that stands for no number. -/
def isNaN : Value → Bool
  | .float bits => Ieee.single.isNaN bits.toNat
  | .double bits => Ieee.double.isNaN bits.toNat
  | _ => false

theorem compareWithinType_of_numbers (sameType : left.type = right.type) {low high : Int}
    (leftNumber : left.number? = some low) (rightNumber : right.number? = some high) :
    left.compareWithinType right = compare low high := by
  cases ofOneType sameType with
  | nulls type => cases leftNumber
  | nullLeft present => cases leftNumber
  | nullRight present => cases rightNumber
  | boolean left right =>
      cases leftNumber
      cases rightNumber
      cases left <;> cases right <;> rfl
  | tinyInt | smallInt | integer | bigInt =>
      cases leftNumber
      cases rightNumber
      rfl
  | float left right =>
      simp only [number?, Option.ite_none_left_eq_some, Bool.not_eq_true, Option.some.injEq]
        at leftNumber rightNumber
      obtain ⟨leftIsNumber, rfl⟩ := leftNumber
      obtain ⟨rightIsNumber, rfl⟩ := rightNumber
      exact Ieee.Format.order_of_numbers (by decide) leftIsNumber rightIsNumber
  | double left right =>
      simp only [number?, Option.ite_none_left_eq_some, Bool.not_eq_true, Option.some.injEq]
        at leftNumber rightNumber
      obtain ⟨leftIsNumber, rfl⟩ := leftNumber
      obtain ⟨rightIsNumber, rfl⟩ := rightNumber
      exact Ieee.Format.order_of_numbers (by decide) leftIsNumber rightIsNumber
  | varchar | largeObject => cases leftNumber

theorem compareWithinType_of_contents (sameType : left.type = right.type)
    {leftContent rightContent : Bytes} (leftBytes : left.stringContent = .ok leftContent)
    (rightBytes : right.stringContent = .ok rightContent) :
    left.compareWithinType right = compare leftContent rightContent := by
  cases ofOneType sameType with
  | nullLeft present => cases leftBytes
  | nullRight present => cases rightBytes
  | varchar | largeObject =>
      cases leftBytes
      cases rightBytes
      rfl
  | _ => cases leftBytes

theorem compareWithinType_of_isNaN (sameType : left.type = right.type)
    (number : left.isNaN = false) (odd : right.isNaN = true) :
    left.compareWithinType right = .lt := by
  cases ofOneType sameType with
  | nullLeft present => exact compareWithinType_null_left present
  | float left right => exact Ieee.Format.order_of_isNaN number odd
  | double left right => exact Ieee.Format.order_of_isNaN number odd
  | _ => cases odd

/-- Values can be compared exactly if they have one type, NULL or not. The order of the values of one
type is total and agrees with equality of content. NULL comes before all others and a pattern for no
number after all others; strings and large objects are ordered by their bytes and then by length,
numbers by size. -/
theorem values_totally_ordered :
    (∀ (left right : Value) (fault : Fault),
      left.compare right = .error fault ↔
        left.type ≠ right.type ∧ fault = .typeMismatch left.type right.type .notComparable) ∧
    (∀ left right : Value, left.type = right.type →
      ∃ outcome, left.compare right = .ok outcome ∧ right.compare left = .ok outcome.swap) ∧
    (∀ left right : Value, left.compare right = .ok .eq ↔ left.contentEq right = true) ∧
    (∀ first second third : Value,
      AtMost first second → AtMost second third → AtMost first third) ∧
    (∀ value : Value, value.isNull = false → (Value.null value.type).compare value = .ok .lt) ∧
    (∀ other odd : Value, other.type = odd.type → other.isNaN = false → odd.isNaN = true →
      other.compare odd = .ok .lt) ∧
    (∀ (left right : Value) (leftContent rightContent : Bytes), left.type = right.type →
      left.stringContent = .ok leftContent → right.stringContent = .ok rightContent →
        (left.compare right = .ok .lt ↔ leftContent.Before rightContent)) ∧
    ∀ (left right : Value) (low high : Int), left.type = right.type →
      left.number? = some low → right.number? = some high →
        left.compare right = .ok (compare low high) := by
  refine ⟨fun left right fault => compare_eq_error_iff, ?total, fun left right => compare_eq_iff,
    fun _ _ _ => AtMost.trans, ?null, ?notNumber, ?bytes, ?number⟩
  case total =>
    intro left right sameType
    refine ⟨_, compare_of_type_eq sameType, ?_⟩
    rw [compare_of_type_eq sameType.symm, compareWithinType_swap sameType]
  case null =>
    intro value present
    have sameType : (Value.null value.type).type = value.type := rfl
    rw [compare_of_type_eq sameType, compareWithinType_null_left present]
  case notNumber =>
    intro other odd sameType number isNaN
    rw [compare_of_type_eq sameType, compareWithinType_of_isNaN sameType number isNaN]
  case bytes =>
    intro left right leftContent rightContent sameType leftBytes rightBytes
    rw [compare_of_type_eq sameType, compareWithinType_of_contents sameType leftBytes rightBytes,
      Except.ok.injEq, Bytes.compare_eq_lt_iff]
  case number =>
    intro left right low high sameType leftNumber rightNumber
    rw [compare_of_type_eq sameType, compareWithinType_of_numbers sameType leftNumber rightNumber]

example :
    (Value.float 0x80000000).compare (.float 0) = .ok .eq ∧
      (Value.float 0x7f800000).compare (.float 0xffc00001) = .ok .lt ∧
      (Value.varchar [97, 0]).compare (.varchar [97, 255]) = .ok .lt :=
  ⟨rfl, rfl, rfl⟩

end Value

end QueryResult

import QueryResult.OrderBy.Basic

/-!
# The arrangement of rows is a total order

Values of one type are ordered by a rank: first by class (NULL, numbers and
contents, patterns that are not numbers), then by number, then by bytes. A sort
key arranges rows by the place of their value, then by type, then by rank in the
direction of the key. Each of these is a lexicographic comparison of totally
ordered parts, and so is the arrangement by a list of keys.
-/

set_option autoImplicit false

namespace QueryResult

namespace Ieee.Format

theorem compare_signedMagnitude (format : Format) {left right : Nat}
    (leftNumber : format.isNaN left = false) (rightNumber : format.isNaN right = false) :
    format.order left right =
      Ord.compare (format.signedMagnitude left) (format.signedMagnitude right) := by
  simp only [order, numberLt, leftNumber, rightNumber, Bool.or_false, Bool.false_eq_true, if_false,
    Bool.not_false, Bool.true_and, decide_eq_true_eq]
  generalize format.signedMagnitude left = leftNumber
  generalize format.signedMagnitude right = rightNumber
  change _ = compareOfLessAndEq leftNumber rightNumber
  unfold compareOfLessAndEq
  by_cases before : leftNumber < rightNumber
  · simp only [before, if_true]
  · by_cases same : leftNumber = rightNumber
    · simp only [same, Int.lt_irrefl, if_true, if_false]
    · have after : rightNumber < leftNumber := by omega
      simp only [before, same, after, if_true, if_false]

end Ieee.Format

namespace Value

/-- NULL, then all that has a number or a content, then what is not a number. -/
def rankClass : Value → Nat
  | .null _ => 0
  | .float bits => if Ieee.single.isNaN bits.toNat then 2 else 1
  | .double bits => if Ieee.double.isNaN bits.toNat then 2 else 1
  | _ => 1

/-- The number by which values of one type and class are ordered. -/
def rankNumber : Value → Int
  | .boolean truth => truth.toInt
  | .tinyInt number => number.toInt
  | .smallInt number => number.toInt
  | .integer number => number.toInt
  | .bigInt number => number.toInt
  | .float bits =>
      if Ieee.single.isNaN bits.toNat then 0 else Ieee.single.signedMagnitude bits.toNat
  | .double bits =>
      if Ieee.double.isNaN bits.toNat then 0 else Ieee.double.signedMagnitude bits.toNat
  | _ => 0

/-- The bytes by which values of one type and class are ordered. -/
def rankBytes : Value → Bytes
  | .varchar content => content
  | .largeObject _ content _ => content
  | _ => []

/-- The order by rank, of values of any types. -/
def compareRank : Value → Value → Ordering :=
  compareLex (compareOn rankClass) (compareLex (compareOn rankNumber) (compareOn rankBytes))

instance : Std.TransCmp compareRank :=
  inferInstanceAs (Std.TransCmp (compareLex (compareOn rankClass)
    (compareLex (compareOn rankNumber) (compareOn rankBytes))))

theorem rankClass_pos {value : Value} (present : value.isNull = false) : 0 < value.rankClass := by
  cases value with
  | null type => cases present
  | float bits => cases odd : Ieee.single.isNaN bits.toNat <;> simp [rankClass, odd]
  | double bits => cases odd : Ieee.double.isNaN bits.toNat <;> simp [rankClass, odd]
  | _ => exact Nat.zero_lt_one

theorem compareRank_null (left right : ValueType) :
    compareRank (.null left) (.null right) = .eq :=
  rfl

theorem compareRank_null_left {type : ValueType} {right : Value} (present : right.isNull = false) :
    compareRank (.null type) right = .lt := by
  have above : compare (rankClass (.null type)) right.rankClass = .lt :=
    Nat.compare_eq_lt.mpr (rankClass_pos present)
  simp only [compareRank, compareLex, compareOn, above, Ordering.then]

theorem compareWithinType_null_left {type : ValueType} {right : Value}
    (present : right.isNull = false) : compareWithinType (.null type) right = .lt := by
  cases right <;> first | rfl | cases present

theorem compareWithinType_null_right {type : ValueType} {left : Value}
    (present : left.isNull = false) : left.compareWithinType (.null type) = .gt := by
  cases left <;> first | rfl | cases present

theorem eq_null_of_isNull {value : Value} (absent : value.isNull = true) :
    ∃ type, value = .null type := by
  cases value <;> first | exact ⟨_, rfl⟩ | cases absent

theorem compareRank_of_numbers (left right : Value) (sameClass : left.rankClass = right.rankClass)
    (sameBytes : left.rankBytes = right.rankBytes) :
    compareRank left right = compare left.rankNumber right.rankNumber := by
  simp [compareRank, compareLex, compareOn, sameClass, sameBytes]

theorem compareRank_of_bytes (left right : Value) (sameClass : left.rankClass = right.rankClass)
    (sameNumber : left.rankNumber = right.rankNumber) :
    compareRank left right = compare left.rankBytes right.rankBytes := by
  simp [compareRank, compareLex, compareOn, sameClass, sameNumber]

theorem compareRank_float (left right : UInt32) :
    compareRank (.float left) (.float right) = Ieee.single.order left.toNat right.toNat := by
  cases leftOdd : Ieee.single.isNaN left.toNat <;> cases rightOdd : Ieee.single.isNaN right.toNat
  · have sameClass : rankClass (.float left) = rankClass (.float right) := by
      simp [rankClass, leftOdd, rightOdd]
    rw [Ieee.Format.compare_signedMagnitude _ leftOdd rightOdd,
      compareRank_of_numbers _ _ sameClass rfl]
    simp [rankNumber, leftOdd, rightOdd]
  all_goals
    simp [compareRank, compareLex, compareOn, rankClass, rankNumber, rankBytes,
      Ieee.Format.order, leftOdd, rightOdd] <;> rfl

theorem compareRank_double (left right : UInt64) :
    compareRank (.double left) (.double right) = Ieee.double.order left.toNat right.toNat := by
  cases leftOdd : Ieee.double.isNaN left.toNat <;> cases rightOdd : Ieee.double.isNaN right.toNat
  · have sameClass : rankClass (.double left) = rankClass (.double right) := by
      simp [rankClass, leftOdd, rightOdd]
    rw [Ieee.Format.compare_signedMagnitude _ leftOdd rightOdd,
      compareRank_of_numbers _ _ sameClass rfl]
    simp [rankNumber, leftOdd, rightOdd]
  all_goals
    simp [compareRank, compareLex, compareOn, rankClass, rankNumber, rankBytes,
      Ieee.Format.order, leftOdd, rightOdd] <;> rfl

/-- Two values of one type: both NULL, one of them, or two of one kind. -/
inductive OfOneType : Value → Value → Prop
  | nulls (type : ValueType) : OfOneType (.null type) (.null type)
  | nullLeft {right : Value} (present : right.isNull = false) : OfOneType (.null right.type) right
  | nullRight {left : Value} (present : left.isNull = false) : OfOneType left (.null left.type)
  | boolean (left right : Bool) : OfOneType (.boolean left) (.boolean right)
  | tinyInt (left right : Int8) : OfOneType (.tinyInt left) (.tinyInt right)
  | smallInt (left right : Int16) : OfOneType (.smallInt left) (.smallInt right)
  | integer (left right : Int32) : OfOneType (.integer left) (.integer right)
  | bigInt (left right : Int64) : OfOneType (.bigInt left) (.bigInt right)
  | float (left right : UInt32) : OfOneType (.float left) (.float right)
  | double (left right : UInt64) : OfOneType (.double left) (.double right)
  | varchar (left right : Bytes) : OfOneType (.varchar left) (.varchar right)
  | largeObject (kind : LargeObjectKind) (left right : Bytes) (leftOrigin rightOrigin : Origin) :
      OfOneType (.largeObject kind left leftOrigin) (.largeObject kind right rightOrigin)

theorem ofOneType {left right : Value} (sameType : left.type = right.type) :
    OfOneType left right := by
  cases leftNull : left.isNull with
  | true =>
      obtain ⟨leftType, rfl⟩ := eq_null_of_isNull leftNull
      cases sameType
      cases rightNull : right.isNull with
      | true =>
          obtain ⟨rightType, rfl⟩ := eq_null_of_isNull rightNull
          exact .nulls rightType
      | false => exact .nullLeft rightNull
  | false =>
      cases rightNull : right.isNull with
      | true =>
          obtain ⟨rightType, rfl⟩ := eq_null_of_isNull rightNull
          cases sameType
          exact .nullRight leftNull
      | false =>
          cases left with
          | null => cases leftNull
          | largeObject kind =>
              cases right with
              | null => cases rightNull
              | largeObject other =>
                  cases kind <;> cases other <;> first | constructor | cases sameType
              | _ => cases kind <;> cases sameType
          | _ =>
              cases right with
              | null => cases rightNull
              | largeObject kind => cases kind <;> cases sameType
              | _ => first | constructor | cases sameType

theorem compareWithinType_eq_compareRank {left right : Value} (sameType : left.type = right.type) :
    left.compareWithinType right = compareRank left right := by
  cases ofOneType sameType with
  | nulls type => rfl
  | nullLeft present => rw [compareWithinType_null_left present, compareRank_null_left present]
  | nullRight present =>
      rw [compareWithinType_null_right present]
      exact (Std.OrientedCmp.gt_of_lt (compareRank_null_left present)).symm
  | boolean left right => cases left <;> cases right <;> rfl
  | tinyInt left right => exact (compareRank_of_numbers (.tinyInt left) (.tinyInt right) rfl rfl).symm
  | smallInt left right => exact (compareRank_of_numbers (.smallInt left) (.smallInt right) rfl rfl).symm
  | integer left right => exact (compareRank_of_numbers (.integer left) (.integer right) rfl rfl).symm
  | bigInt left right => exact (compareRank_of_numbers (.bigInt left) (.bigInt right) rfl rfl).symm
  | float left right => exact (compareRank_float left right).symm
  | double left right => exact (compareRank_double left right).symm
  | varchar left right => exact (compareRank_of_bytes (.varchar left) (.varchar right) rfl rfl).symm
  | largeObject kind left right leftOrigin rightOrigin =>
      exact (compareRank_of_bytes (.largeObject kind left leftOrigin)
        (.largeObject kind right rightOrigin) rfl rfl).symm

theorem compare_swap {left right : Value} {outcome : Ordering}
    (compared : left.compare right = .ok outcome) : ∃ other, right.compare left = .ok other := by
  unfold Value.compare at compared ⊢
  split at compared
  · rename_i sameType
    rw [if_pos sameType.symm]
    exact ⟨_, rfl⟩
  · cases compared

end Value

/-!
## Sort keys
-/

theorem transCmp_on {α β : Type} (cmp : β → β → Ordering) [Std.TransCmp cmp] (view : α → β) :
    Std.TransCmp fun left right => cmp (view left) (view right) where
  eq_swap := Std.OrientedCmp.eq_swap
  isLE_trans := Std.TransCmp.isLE_trans

instance Direction.transCmp {α : Type} (direction : Direction) (cmp : α → α → Ordering)
    [Std.TransCmp cmp] :
    Std.TransCmp fun left right => direction.apply (cmp left right) := by
  cases direction with
  | ascending => exact inferInstanceAs (Std.TransCmp cmp)
  | descending =>
      have swapped : (fun left right => Direction.descending.apply (cmp left right)) =
          fun left right => cmp right left :=
        funext fun left => funext fun right => Std.OrientedCmp.eq_swap.symm
      rw [swapped]
      infer_instance

namespace SortKey

/-- Where a key places a row: first without the column, then by its value's being NULL. -/
def place (key : SortKey) (row : Row) : Nat :=
  match row[key.column]? with
  | none => 0
  | some value => if value.isNull then (if key.nullsFirst then 1 else 3) else 2

/-- The code of the type of a row's value under a key, of NULL and of no value zero. -/
def typeCode (key : SortKey) (row : Row) : UInt8 :=
  match row[key.column]? with
  | none => 0
  | some value => if value.isNull then 0 else value.type.code

/-- The value of a row under a key, NULL in place of no value. -/
def valueOf (key : SortKey) (row : Row) : Value :=
  row[key.column]?.getD (.null .boolean)

/-- The lexicographic comparison that a key arranges rows by. -/
def lexicographic (key : SortKey) : Row → Row → Ordering :=
  compareLex (compareOn key.place) (compareLex (compareOn key.typeCode)
    (fun left right => key.direction.apply (Value.compareRank (key.valueOf left) (key.valueOf right))))

theorem code_injective {left right : ValueType} (same : left.code = right.code) : left = right := by
  cases left <;> cases right <;> first | rfl | exact absurd same (by decide)

variable {key : SortKey} {row left right : Row} {value leftValue rightValue : Value}

theorem place_of_missing (missing : row[key.column]? = none) : key.place row = 0 := by
  simp only [place, missing]

theorem place_of_null (found : row[key.column]? = some value) (null : value.isNull = true) :
    key.place row = if key.nullsFirst then 1 else 3 := by
  simp only [place, found, null, if_true]

theorem place_of_present (found : row[key.column]? = some value) (present : value.isNull = false) :
    key.place row = 2 := by
  simp only [place, found, present, Bool.false_eq_true, if_false]

theorem place_pos (found : row[key.column]? = some value) : 0 < key.place row := by
  cases null : value.isNull with
  | false => rw [place_of_present found null]; decide
  | true => rw [place_of_null found null]; split <;> decide

theorem lexicographic_of_place_lt
    (before : key.place left < key.place right) : key.lexicographic left right = .lt := by
  simp [lexicographic, compareLex, compareOn, Nat.compare_eq_lt.mpr before]

theorem lexicographic_of_place_gt
    (after : key.place right < key.place left) : key.lexicographic left right = .gt := by
  simp [lexicographic, compareLex, compareOn, Nat.compare_eq_gt.mpr after]

theorem lexicographic_of_place_eq
    (same : key.place left = key.place right) :
    key.lexicographic left right = (compare (key.typeCode left) (key.typeCode right)).then
      (key.direction.apply (Value.compareRank (key.valueOf left) (key.valueOf right))) := by
  simp [lexicographic, compareLex, compareOn, same]

theorem apply_eq (direction : Direction) : direction.apply .eq = .eq := by
  cases direction <;> rfl

/-- Of two values that are not NULL the type decides, then the order within the type. -/
theorem lexicographic_of_present (leftFound : left[key.column]? = some leftValue)
    (rightFound : right[key.column]? = some rightValue) (leftPresent : leftValue.isNull = false)
    (rightPresent : rightValue.isNull = false) :
    key.lexicographic left right =
      (compare leftValue.type.code rightValue.type.code).then
        (key.direction.apply (Value.compareRank leftValue rightValue)) := by
  rw [lexicographic_of_place_eq
    ((place_of_present leftFound leftPresent).trans (place_of_present rightFound rightPresent).symm)]
  simp [typeCode, valueOf, leftFound, rightFound, leftPresent, rightPresent]

theorem arrange_of_present (leftFound : left[key.column]? = some leftValue)
    (rightFound : right[key.column]? = some rightValue) (leftPresent : leftValue.isNull = false)
    (rightPresent : rightValue.isNull = false) :
    key.arrange left right =
      (compare leftValue.type.code rightValue.type.code).then
        (key.direction.apply (Value.compareRank leftValue rightValue)) := by
  simp only [arrange, compareValues, leftFound, rightFound, leftPresent, rightPresent, Value.compare]
  by_cases sameType : leftValue.type = rightValue.type
  · simp [sameType, Except.map, Value.compareWithinType_eq_compareRank sameType]
  · have decided : compare leftValue.type.code rightValue.type.code ≠ .eq := fun same =>
      sameType (code_injective (Std.LawfulEqCmp.eq_of_compare same))
    simp only [sameType, if_false, Except.map]
    generalize compare leftValue.type.code rightValue.type.code = compared at decided ⊢
    cases compared with
    | eq => exact absurd rfl decided
    | lt => rfl
    | gt => rfl

theorem arrange_eq_lexicographic (key : SortKey) : key.arrange = key.lexicographic := by
  funext left right
  cases leftFound : left[key.column]? with
  | none =>
      cases rightFound : right[key.column]? with
      | none =>
          rw [lexicographic_of_place_eq
            ((place_of_missing leftFound).trans (place_of_missing rightFound).symm)]
          simp [arrange, typeCode, valueOf, leftFound, rightFound, Value.compareRank_null, apply_eq]
      | some rightValue =>
          rw [lexicographic_of_place_lt (place_of_missing leftFound ▸ place_pos rightFound)]
          simp only [arrange, leftFound, rightFound]
  | some leftValue =>
      cases rightFound : right[key.column]? with
      | none =>
          rw [lexicographic_of_place_gt (place_of_missing rightFound ▸ place_pos leftFound)]
          simp only [arrange, leftFound, rightFound]
      | some rightValue =>
          cases leftNull : leftValue.isNull <;> cases rightNull : rightValue.isNull
          · rw [arrange_of_present leftFound rightFound leftNull rightNull,
              lexicographic_of_present leftFound rightFound leftNull rightNull]
          · have leftPlace := place_of_present leftFound leftNull
            have rightPlace := place_of_null rightFound rightNull
            simp only [arrange, compareValues, leftFound, rightFound, leftNull, rightNull]
            cases first : key.nullsFirst
            · exact (lexicographic_of_place_lt (by simp [leftPlace, rightPlace, first])).symm
            · exact (lexicographic_of_place_gt (by simp [leftPlace, rightPlace, first])).symm
          · have leftPlace := place_of_null leftFound leftNull
            have rightPlace := place_of_present rightFound rightNull
            simp only [arrange, compareValues, leftFound, rightFound, leftNull, rightNull]
            cases first : key.nullsFirst
            · exact (lexicographic_of_place_gt (by simp [leftPlace, rightPlace, first])).symm
            · exact (lexicographic_of_place_lt (by simp [leftPlace, rightPlace, first])).symm
          · obtain ⟨leftType, rfl⟩ := Value.eq_null_of_isNull leftNull
            obtain ⟨rightType, rfl⟩ := Value.eq_null_of_isNull rightNull
            rw [lexicographic_of_place_eq
              ((place_of_null leftFound leftNull).trans (place_of_null rightFound rightNull).symm)]
            simp only [arrange, compareValues, leftNull, rightNull, typeCode, valueOf, leftFound,
              rightFound, Option.getD_some]
            exact (apply_eq key.direction).symm

instance transCmp_arrange (key : SortKey) : Std.TransCmp key.arrange := by
  have ranked : Std.TransCmp fun left right =>
      Value.compareRank (key.valueOf left) (key.valueOf right) :=
    transCmp_on Value.compareRank key.valueOf
  rw [arrange_eq_lexicographic]
  exact inferInstanceAs (Std.TransCmp (compareLex (compareOn key.place)
    (compareLex (compareOn key.typeCode) (fun left right =>
      key.direction.apply (Value.compareRank (key.valueOf left) (key.valueOf right))))))

theorem compare_self {key : SortKey} {row : Row} (present : key.column < row.length) :
    ∃ outcome, key.compare row row = .ok outcome := by
  simp only [SortKey.compare, List.getElem?_eq_getElem present, SortKey.compareValues]
  cases row[key.column].isNull with
  | true => exact ⟨.eq, rfl⟩
  | false => exact ⟨_, by rw [Value.compare, if_pos rfl]; rfl⟩

theorem compare_swap {key : SortKey} {left right : Row} {outcome : Ordering}
    (compared : key.compare left right = .ok outcome) :
    key.compare right left = .ok outcome.swap := by
  have swapped : ∃ other, key.compare right left = .ok other := by
    unfold SortKey.compare SortKey.compareValues at compared ⊢
    cases leftFound : left[key.column]? with
    | none => simp [leftFound] at compared
    | some leftValue =>
        cases rightFound : right[key.column]? with
        | none => simp [leftFound, rightFound] at compared
        | some rightValue =>
            simp only [leftFound, rightFound] at compared ⊢
            cases leftNull : leftValue.isNull with
            | true => cases rightNull : rightValue.isNull <;> exact ⟨_, rfl⟩
            | false =>
                cases rightNull : rightValue.isNull with
                | true => exact ⟨_, rfl⟩
                | false =>
                    simp only [leftNull, rightNull] at compared
                    cases valuesCompared : leftValue.compare rightValue with
                    | error fault => simp [valuesCompared, Except.map] at compared
                    | ok valueOutcome =>
                        obtain ⟨other, found⟩ := Value.compare_swap valuesCompared
                        exact ⟨_, by rw [found]; rfl⟩
  obtain ⟨other, found⟩ := swapped
  have mirrored : key.arrange left right = (key.arrange right left).swap :=
    Std.OrientedCmp.eq_swap
  rw [SortKey.arrange_of_compare compared, SortKey.arrange_of_compare found] at mirrored
  rw [found, mirrored, Ordering.swap_swap]

end SortKey

theorem arrangeKeys_cons (key : SortKey) (rest : List SortKey) :
    arrangeKeys (key :: rest) = compareLex key.arrange (arrangeKeys rest) := by
  funext left right
  unfold arrangeKeys compareLex
  cases key.arrange left right <;> rfl

instance transCmp_arrangeKeys (keys : List SortKey) : Std.TransCmp (arrangeKeys keys) := by
  induction keys with
  | nil => exact { eq_swap := rfl, isLE_trans := fun _ _ => rfl }
  | cons key rest ih =>
      rw [arrangeKeys_cons]
      infer_instance

namespace OrderBy

instance transCmp_arrange (order : OrderBy) : Std.TransCmp order.arrange :=
  transCmp_arrangeKeys order.keys

theorem compare_self {order : OrderBy} {row : Row}
    (columns : ∀ key ∈ order.keys, key.column < row.length) :
    ∃ outcome, order.compare row row = .ok outcome := by
  unfold OrderBy.compare
  generalize order.keys = keys at columns
  induction keys with
  | nil => exact ⟨.eq, rfl⟩
  | cons key rest ih =>
      obtain ⟨outcome, compared⟩ := SortKey.compare_self (columns key (by simp))
      simp only [compareKeys, compared]
      cases outcome with
      | lt => exact ⟨.lt, rfl⟩
      | eq => exact ih fun other listed => columns other (.tail _ listed)
      | gt => exact ⟨.gt, rfl⟩

theorem compare_swap {order : OrderBy} {left right : Row} {outcome : Ordering}
    (compared : order.compare left right = .ok outcome) :
    ∃ other, order.compare right left = .ok other := by
  unfold OrderBy.compare at compared ⊢
  generalize order.keys = keys at compared
  induction keys with
  | nil => exact ⟨.eq, rfl⟩
  | cons key rest ih =>
      unfold compareKeys at compared ⊢
      cases first : key.compare left right with
      | error fault => simp [first] at compared
      | ok decided =>
          rw [first] at compared
          rw [SortKey.compare_swap first]
          cases decided with
          | lt => exact ⟨.gt, rfl⟩
          | eq => exact ih compared
          | gt => exact ⟨.lt, rfl⟩

end OrderBy

end QueryResult

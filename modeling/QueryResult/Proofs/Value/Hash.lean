import QueryResult.Proofs.Hash.Mix
import QueryResult.Proofs.Value.Order

/-!
# The hashes of values

A value of fixed width stands for one word, and patterns of one number for the
same word. Its hash mixes this word with its type, so that values of one type
have the same hash under a seed only if their content is equal. The seed enters
such a hash by exclusive or. Whatever the value, no two seeds give it the same
hash.
-/

set_option autoImplicit false

namespace QueryResult

/-- Whether the values of a type, NULL apart, all have the same width. -/
def ValueType.isFixedWidth : ValueType → Bool
  | .boolean | .tinyInt | .smallInt | .integer | .bigInt | .float | .double => true
  | .varchar | .blob | .clob => false

namespace Value

/-- A value of a type of fixed width, and not NULL. -/
def FixedWidth (value : Value) : Prop :=
  value.isNull = false ∧ value.type.isFixedWidth = true

instance (value : Value) : Decidable value.FixedWidth :=
  inferInstanceAs (Decidable (_ ∧ _))

/-- The word that a value of fixed width is hashed as. -/
def word? : Value → Option UInt64
  | .boolean truth => some truth.toUInt64
  | .tinyInt number => some number.toInt64.toUInt64
  | .smallInt number => some number.toInt64.toUInt64
  | .integer number => some number.toInt64.toUInt64
  | .bigInt number => some number.toUInt64
  | .float bits => some (Ieee.canonicalSingle bits).toUInt64
  | .double bits => some (Ieee.canonicalDouble bits)
  | .null _ | .varchar _ | .largeObject .. => none

variable {left right value : Value} {leftWord rightWord word : UInt64}

theorem FixedWidth.exists_word (fixed : value.FixedWidth) : ∃ word, value.word? = some word := by
  obtain ⟨present, width⟩ := fixed
  cases value with
  | null type => cases present
  | varchar content => cases width
  | largeObject kind content origin => cases kind <;> cases width
  | _ => exact ⟨_, rfl⟩

theorem FixedWidth.of_contentEq (fixed : left.FixedWidth) (equal : left.contentEq right = true) :
    right.FixedWidth := by
  obtain ⟨present, width⟩ := fixed
  constructor
  · cases null : right.isNull with
    | false => rfl
    | true =>
        obtain ⟨type, rfl⟩ := eq_null_of_isNull null
        rw [contentEq_null_right present] at equal
        cases equal
  · rw [← type_eq_of_contentEq equal]
    exact width

theorem contentHash_of_word (found : value.word? = some word) (seed : UInt64) :
    value.contentHash seed = Hash.murmur word (Hash.murmur value.type.code.toUInt64 seed) := by
  cases value <;> cases found <;> rfl

/-- Numbers extended to 64 bits are told apart by their words if the extension can be undone. -/
theorem extended_eq_iff {Number : Type} (extend : Number → Int64) (shorten : Int64 → Number)
    (undone : ∀ number, shorten (extend number) = number) {left right : Number} :
    (extend left).toUInt64 = (extend right).toUInt64 ↔ left = right := by
  have extended : Function.LeftInverse (fun word => shorten (UInt64.toInt64 word))
      fun number => (extend number).toUInt64 := by
    intro number
    dsimp only
    rw [Int64.toInt64_toUInt64, undone]
  exact extended.injective.eq_iff

/-- Values of one type and of fixed width have equal content exactly if they stand for one word. -/
theorem contentEq_iff_word (sameType : left.type = right.type)
    (leftFound : left.word? = some leftWord) (rightFound : right.word? = some rightWord) :
    left.contentEq right = true ↔ leftWord = rightWord := by
  cases ofOneType sameType with
  | boolean left right =>
      cases leftFound
      cases rightFound
      cases left <;> cases right <;> decide
  | tinyInt left right =>
      cases leftFound
      cases rightFound
      exact decide_eq_true_iff.trans (extended_eq_iff _ _ Int8.toInt8_toInt64).symm
  | smallInt left right =>
      cases leftFound
      cases rightFound
      exact decide_eq_true_iff.trans (extended_eq_iff _ _ Int16.toInt16_toInt64).symm
  | integer left right =>
      cases leftFound
      cases rightFound
      exact decide_eq_true_iff.trans (extended_eq_iff _ _ Int32.toInt32_toInt64).symm
  | bigInt left right =>
      cases leftFound
      cases rightFound
      exact decide_eq_true_iff.trans (extended_eq_iff id id fun _ => rfl).symm
  | float left right =>
      cases leftFound
      cases rightFound
      exact (Ieee.sameNumber_single_iff left right).trans UInt32.toUInt64_inj.symm
  | double left right =>
      cases leftFound
      cases rightFound
      exact Ieee.sameNumber_double_iff left right
  | nullLeft present => cases leftFound
  | nullRight present => cases rightFound
  | _ => cases leftFound

theorem contentHash_injective (value : Value) : Function.Injective value.contentHash := by
  have typed := Hash.murmur_injective_seed value.type.code.toUInt64
  cases value with
  | null type => exact (Hash.combine_injective_first 0).comp typed
  | varchar content => exact (Hash.combine_injective_first (Hash.xxh64 content)).comp typed
  | largeObject kind content origin =>
      exact (Hash.combine_injective_first (Hash.xxh64 content)).comp typed
  | _ => exact (Hash.murmur_injective_seed _).comp typed

theorem contentHash_eq_iff (leftFixed : left.FixedWidth) (rightFixed : right.FixedWidth)
    (sameType : left.type = right.type) (seed : UInt64) :
    left.contentHash seed = right.contentHash seed ↔ left.contentEq right = true := by
  obtain ⟨leftWord, leftFound⟩ := leftFixed.exists_word
  obtain ⟨rightWord, rightFound⟩ := rightFixed.exists_word
  rw [contentHash_of_word leftFound, contentHash_of_word rightFound, sameType, Hash.murmur_eq_iff,
    contentEq_iff_word sameType leftFound rightFound]

theorem FixedWidth.contentHash_eq_xor (fixed : value.FixedWidth) (seed : UInt64) :
    value.contentHash seed = value.contentHash 0 ^^^ seed := by
  obtain ⟨word, found⟩ := fixed.exists_word
  rw [contentHash_of_word found, contentHash_of_word found]
  unfold Hash.murmur
  rw [UInt64.xor_zero, UInt64.xor_assoc]

end Value

end QueryResult

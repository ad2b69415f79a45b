import QueryResult.RowKey

/-!
# Equal content

Values of equal content have a common representative, `Value.canonical`, and
their hashes are the hash of it. Equality of content is therefore an
equivalence, position by position also of value lists, and equal content has
equal hashes. `RowContent` is a value list up to equal content.
-/

set_option autoImplicit false

namespace QueryResult

namespace Ieee

/-- A pattern that represents its class of equal numbers, given the ones for no number and for
zero. -/
def representative {Bits : Type} (format : Format) (toNat : Bits → Nat) (noNumber zero bits : Bits) :
    Bits :=
  if format.isNaN (toNat bits) then noNumber
  else if format.isZero (toNat bits) then zero
  else bits

section Representative

variable {Bits : Type} {format : Format} {toNat : Bits → Nat} {noNumber zero : Bits}

theorem representative_idem (noNumberIsNaN : format.isNaN (toNat noNumber) = true)
    (zeroIsNumber : format.isNaN (toNat zero) = false)
    (zeroIsZero : format.isZero (toNat zero) = true) (bits : Bits) :
    representative format toNat noNumber zero (representative format toNat noNumber zero bits) =
      representative format toNat noNumber zero bits := by
  cases isNaN : format.isNaN (toNat bits) with
  | true => simp [representative, isNaN, noNumberIsNaN]
  | false =>
      cases isZero : format.isZero (toNat bits) with
      | true => simp [representative, isNaN, isZero, zeroIsNumber, zeroIsZero]
      | false => simp [representative, isNaN, isZero]

theorem isNaN_representative (noNumberIsNaN : format.isNaN (toNat noNumber) = true)
    (zeroIsNumber : format.isNaN (toNat zero) = false) (bits : Bits) :
    format.isNaN (toNat (representative format toNat noNumber zero bits)) =
      format.isNaN (toNat bits) := by
  unfold representative
  split
  · rename_i isNaN
    rw [noNumberIsNaN, isNaN]
  · rename_i isNumber
    split
    · rw [zeroIsNumber, Bool.eq_false_iff.mpr isNumber]
    · rfl

theorem isZero_representative (zeroIsZero : format.isZero (toNat zero) = true) {bits : Bits}
    (isNumber : format.isNaN (toNat bits) = false) :
    format.isZero (toNat (representative format toNat noNumber zero bits)) =
      format.isZero (toNat bits) := by
  unfold representative
  rw [if_neg (by simp [isNumber])]
  split
  · rename_i isZero
    rw [zeroIsZero, isZero]
  · rfl

/-- Patterns are the same number if they have the same representative. -/
theorem sameNumber_iff (injective : ∀ left right, toNat left = toNat right → left = right)
    (noNumberIsNaN : format.isNaN (toNat noNumber) = true)
    (zeroIsNumber : format.isNaN (toNat zero) = false)
    (zeroIsZero : format.isZero (toNat zero) = true) (left right : Bits) :
    format.sameNumber (toNat left) (toNat right) = true ↔
      representative format toNat noNumber zero left =
        representative format toNat noNumber zero right := by
  constructor
  · intro same
    simp only [Format.sameNumber, Format.numberEq, Bool.or_eq_true, Bool.and_eq_true,
      Bool.not_eq_true', decide_eq_true_eq] at same
    rcases same with ⟨⟨leftNumber, rightNumber⟩, equal | ⟨leftZero, rightZero⟩⟩ | ⟨leftNaN, rightNaN⟩
    · rw [injective left right equal]
    · simp [representative, leftNumber, rightNumber, leftZero, rightZero]
    · simp [representative, leftNaN, rightNaN]
  · intro same
    have sameNaN := isNaN_representative noNumberIsNaN zeroIsNumber left
    rw [same, isNaN_representative noNumberIsNaN zeroIsNumber right] at sameNaN
    cases leftNaN : format.isNaN (toNat left) with
    | true => simp [Format.sameNumber, leftNaN, sameNaN]
    | false =>
        have rightNaN := sameNaN.trans leftNaN
        have sameZero :
            format.isZero (toNat (representative format toNat noNumber zero left)) = _ :=
          isZero_representative zeroIsZero leftNaN
        rw [same, isZero_representative zeroIsZero rightNaN] at sameZero
        cases leftZero : format.isZero (toNat left) with
        | true => simp [Format.sameNumber, Format.numberEq, leftNaN, rightNaN, leftZero, sameZero]
        | false =>
            have rightZero := sameZero.trans leftZero
            simp only [representative, leftNaN, rightNaN, leftZero, rightZero, Bool.false_eq_true,
              if_false] at same
            simp [Format.sameNumber, Format.numberEq, rightNaN, same]

end Representative

theorem sameNumber_single_iff (left right : UInt32) :
    single.sameNumber left.toNat right.toNat = true ↔
      canonicalSingle left = canonicalSingle right :=
  sameNumber_iff (fun _ _ => UInt32.toNat_inj.mp) (by decide) (by decide) (by decide) left right

theorem sameNumber_double_iff (left right : UInt64) :
    double.sameNumber left.toNat right.toNat = true ↔
      canonicalDouble left = canonicalDouble right :=
  sameNumber_iff (fun _ _ => UInt64.toNat_inj.mp) (by decide) (by decide) (by decide) left right

theorem canonicalSingle_idem (bits : UInt32) :
    canonicalSingle (canonicalSingle bits) = canonicalSingle bits :=
  representative_idem (by decide) (by decide) (by decide) bits

theorem canonicalDouble_idem (bits : UInt64) :
    canonicalDouble (canonicalDouble bits) = canonicalDouble bits :=
  representative_idem (by decide) (by decide) (by decide) bits

end Ieee

namespace Value

/-- The value that represents all values of equal content. -/
def canonical : Value → Value
  | .float bits => .float (Ieee.canonicalSingle bits)
  | .double bits => .double (Ieee.canonicalDouble bits)
  | .largeObject kind content _ => .largeObject kind content .owned
  | value => value

theorem contentEq_iff {left right : Value} :
    left.contentEq right = true ↔ left.canonical = right.canonical := by
  cases left with
  | float leftBits =>
      cases right with
      | float rightBits =>
          simpa [contentEq, canonical] using Ieee.sameNumber_single_iff leftBits rightBits
      | _ => simp [contentEq, canonical]
  | double leftBits =>
      cases right with
      | double rightBits =>
          simpa [contentEq, canonical] using Ieee.sameNumber_double_iff leftBits rightBits
      | _ => simp [contentEq, canonical]
  | _ => cases right <;> simp [contentEq, canonical]

theorem contentHash_canonical (value : Value) (seed : UInt64) :
    value.canonical.contentHash seed = value.contentHash seed := by
  cases value with
  | float bits => simp only [canonical, contentHash, Ieee.canonicalSingle_idem]; rfl
  | double bits => simp only [canonical, contentHash, Ieee.canonicalDouble_idem]; rfl
  | _ => rfl

theorem canonical_detach (value : Value) : value.detach.canonical = value.canonical := by
  cases value <;> rfl

end Value

/-! ## Value lists -/

theorem sameContent_iff {left right : List Value} :
    sameContent left right = true ↔ left.map Value.canonical = right.map Value.canonical := by
  induction left generalizing right with
  | nil => cases right <;> simp [sameContent]
  | cons value rest ih =>
      cases right with
      | nil => simp [sameContent]
      | cons other others => simp [sameContent, Value.contentEq_iff, ih]

theorem chainHash_canonical (start : UInt64) (values : List Value) :
    chainHash start (values.map Value.canonical) = chainHash start values := by
  unfold chainHash
  rw [List.foldl_map]
  simp only [Value.contentHash_canonical]

theorem chainHash_eq_of_sameContent {left right : List Value}
    (same : sameContent left right = true) (start : UInt64) :
    chainHash start left = chainHash start right := by
  rw [← chainHash_canonical start left, sameContent_iff.mp same, chainHash_canonical]

/-- A collision of hashes does not join keys, since their values are compared as well. -/
theorem RowKey.agrees_iff_sameContent {left right : List Value} :
    (ofValues left).agrees (ofValues right) = true ↔ sameContent left right = true := by
  rw [agrees, Bool.and_eq_true, beq_iff_eq]
  exact ⟨fun both => both.2, fun same => ⟨chainHash_eq_of_sameContent same 0, same⟩⟩

/-- Value lists of equal content are equivalent. -/
instance contentSetoid : Setoid (List Value) where
  r left right := sameContent left right = true
  iseqv :=
    { refl := fun _ => sameContent_iff.mpr rfl
      symm := fun same => sameContent_iff.mpr (sameContent_iff.mp same).symm
      trans := fun first second =>
        sameContent_iff.mpr ((sameContent_iff.mp first).trans (sameContent_iff.mp second)) }

instance : DecidableRel (HasEquiv.Equiv (α := List Value)) := fun left right =>
  inferInstanceAs (Decidable (sameContent left right = true))

/-- The content of a value list: its class of lists of equal content. -/
def RowContent : Type := Quotient contentSetoid

namespace RowContent

/-- The content of a value list. -/
def of (values : List Value) : RowContent := Quotient.mk _ values

instance : DecidableEq RowContent := inferInstanceAs (DecidableEq (Quotient contentSetoid))

theorem of_eq_of_iff {left right : List Value} :
    of left = of right ↔ sameContent left right = true :=
  ⟨Quotient.exact, Quotient.sound (s := contentSetoid)⟩

end RowContent

end QueryResult

import Mathlib.Data.List.Forall2
import QueryResult.Proofs.Value.Content

/-!
# Row keys identify rows by their content

Equality of content relates a value to itself, to the patterns of the same number
and to the large objects with the same bytes, and to nothing else. It is an
equivalence that every hash respects, whatever the seed. A row key threads its
hash through its values, so that keys agree exactly if their values have equal
content one by one: comparing hashes first neither separates keys that should
agree nor joins others.
-/

set_option autoImplicit false

namespace QueryResult

/-! ## Values of equal content -/

namespace Ieee.Format

variable {format : Format} {left right : Nat}

/-- The pairs of patterns that are one number or none: the same pattern, two for no number, and two
zeros. -/
inductive Alike (format : Format) : Nat → Nat → Prop
  | pattern (bits : Nat) : Alike format bits bits
  | noNumber {left right : Nat} (leftOdd : format.isNaN left = true)
      (rightOdd : format.isNaN right = true) : Alike format left right
  | zero {left right : Nat} (leftZero : format.isZero left = true)
      (rightZero : format.isZero right = true) : Alike format left right

theorem isNaN_of_isZero {bits : Nat} (zero : format.isZero bits = true) :
    format.isNaN bits = false := by
  simp only [isZero, decide_eq_true_eq] at zero
  simp [isNaN, zero]

theorem sameNumber_iff_alike : format.sameNumber left right = true ↔ format.Alike left right := by
  simp only [sameNumber, numberEq, Bool.or_eq_true, Bool.and_eq_true, Bool.not_eq_true',
    decide_eq_true_eq]
  constructor
  · rintro (⟨_, rfl | zeros⟩ | odd)
    · exact .pattern left
    · exact .zero zeros.1 zeros.2
    · exact .noNumber odd.1 odd.2
  · rintro (_ | ⟨leftOdd, rightOdd⟩ | ⟨leftZero, rightZero⟩)
    · cases odd : format.isNaN left with
      | true => exact .inr ⟨rfl, rfl⟩
      | false => exact .inl ⟨⟨rfl, rfl⟩, .inl rfl⟩
    · exact .inr ⟨leftOdd, rightOdd⟩
    · exact .inl ⟨⟨isNaN_of_isZero leftZero, isNaN_of_isZero rightZero⟩, .inr ⟨leftZero, rightZero⟩⟩

end Ieee.Format

namespace Value

/-- The pairs of values with equal content: the same value, patterns of one number or of none, and
large objects with the same bytes, each owned or linked. -/
inductive Same : Value → Value → Prop
  | value (value : Value) : Same value value
  | float {left right : UInt32} (alike : Ieee.single.Alike left.toNat right.toNat) :
      Same (.float left) (.float right)
  | double {left right : UInt64} (alike : Ieee.double.Alike left.toNat right.toNat) :
      Same (.double left) (.double right)
  | largeObject (kind : LargeObjectKind) (content : Bytes) (leftOrigin rightOrigin : Origin) :
      Same (.largeObject kind content leftOrigin) (.largeObject kind content rightOrigin)

theorem Same.of_eq {left right : Value} (equal : left = right) : Same left right :=
  equal ▸ .value left

theorem Same.contentEq {left right : Value} (same : Same left right) :
    left.contentEq right = true := by
  cases same with
  | value => exact contentEq_iff.mpr rfl
  | float alike => exact Ieee.Format.sameNumber_iff_alike.mpr alike
  | double alike => exact Ieee.Format.sameNumber_iff_alike.mpr alike
  | largeObject => exact contentEq_iff.mpr rfl

theorem same_of_contentEq {left right : Value} (equal : left.contentEq right = true) :
    Same left right := by
  -- Values of equal content have one representative, so that only values of one kind are left.
  have representatives := contentEq_iff.mp equal
  cases left with
  | float leftBits =>
      cases right with
      | float rightBits => exact .float (Ieee.Format.sameNumber_iff_alike.mp equal)
      | _ => cases representatives
  | double leftBits =>
      cases right with
      | double rightBits => exact .double (Ieee.Format.sameNumber_iff_alike.mp equal)
      | _ => cases representatives
  | largeObject kind content origin =>
      cases right with
      | largeObject =>
          cases representatives
          exact .largeObject kind content _ _
      | _ => cases representatives
  | _ =>
      cases right with
      | float | double | largeObject => cases representatives
      | _ => exact .of_eq representatives

theorem contentEq_iff_same {left right : Value} : left.contentEq right = true ↔ Same left right :=
  ⟨same_of_contentEq, Same.contentEq⟩

theorem contentEq_equivalence : Equivalence fun left right : Value => left.contentEq right = true where
  refl _ := contentEq_iff.mpr rfl
  symm equal := contentEq_iff.mpr (contentEq_iff.mp equal).symm
  trans first second := contentEq_iff.mpr ((contentEq_iff.mp first).trans (contentEq_iff.mp second))

theorem contentHash_eq_of_contentEq {left right : Value} (equal : left.contentEq right = true)
    (seed : UInt64) : left.contentHash seed = right.contentHash seed := by
  rw [← contentHash_canonical left, contentEq_iff.mp equal, contentHash_canonical]

end Value

/-! ## Keys -/

theorem sameContent_iff_forall₂ {lefts rights : List Value} :
    sameContent lefts rights = true ↔
      List.Forall₂ (fun left right => left.contentEq right = true) lefts rights := by
  induction lefts generalizing rights with
  | nil => cases rights <;> simp [sameContent]
  | cons left lefts ih => cases rights <;> simp [sameContent, ih]

/-- Equality of content is an equivalence of values, respected by their hashes under every seed. Row
keys agree exactly if their values, as many in one as in the other, have equal content one by one. -/
theorem content_identity_coherent :
    (Equivalence fun left right : Value => left.contentEq right = true) ∧
    (∀ left right : Value, left.contentEq right = true ↔ Value.Same left right) ∧
    (∀ left right : Value, left.contentEq right = true →
      ∀ seed, left.contentHash seed = right.contentHash seed) ∧
    ∀ lefts rights : List Value,
      (RowKey.ofValues lefts).agrees (RowKey.ofValues rights) = true ↔
        List.Forall₂ (fun left right => left.contentEq right = true) lefts rights :=
  ⟨Value.contentEq_equivalence, fun _ _ => Value.contentEq_iff_same,
    fun _ _ => Value.contentHash_eq_of_contentEq,
    fun _ _ => RowKey.agrees_iff_sameContent.trans sameContent_iff_forall₂⟩

end QueryResult

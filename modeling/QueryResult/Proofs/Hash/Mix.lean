import Mathlib.Data.List.Perm.Basic
import Mathlib.Logic.Function.Basic
import QueryResult.Hash.Mix

/-!
# Mixing loses nothing

Every step of the mixers can be undone: the exclusive or of a word with itself
shifted by half its width or more undoes itself, and a product with an odd number
is undone by a product with its inverse. So the finalizer takes different words to
different hashes, and both mixers take different seeds to different hashes,
whatever else goes in.

`xorAll` joins hashes without regard to their order.
-/

set_option autoImplicit false

namespace QueryResult.Hash

/-! ## Steps that can be undone -/

/-- What is left of a word shifted by half its width or more is gone after another such shift. -/
theorem shiftRight_shiftRight_eq_zero {shift : UInt64} (half : 32 ≤ shift.toNat % 64) (word : UInt64) :
    word >>> shift >>> shift = 0 := by
  apply UInt64.toBitVec_inj.mp
  have count : (shift.toBitVec % 64).toNat = shift.toNat % 64 := by
    rw [BitVec.toNat_umod, UInt64.toNat_toBitVec]
    rfl
  have wide : 64 ≤ (shift.toBitVec % 64).toNat + (shift.toBitVec % 64).toNat := by omega
  simp only [UInt64.toBitVec_shiftRight, BitVec.ushiftRight_eq']
  rw [← BitVec.shiftRight_add]
  exact BitVec.ushiftRight_eq_zero wide

theorem xorShift_involutive {shift : UInt64} (half : 32 ≤ shift.toNat % 64) :
    Function.Involutive (xorShift shift) := by
  intro word
  unfold xorShift
  rw [UInt64.shiftRight_xor, shiftRight_shiftRight_eq_zero half, UInt64.xor_zero, UInt64.xor_assoc,
    UInt64.xor_self, UInt64.xor_zero]

theorem mul_injective {factor : UInt64} (inverse : UInt64) (unit : factor * inverse = 1) :
    Function.Injective fun word => word * factor := by
  apply Function.LeftInverse.injective (g := fun word => word * inverse)
  intro word
  dsimp only
  rw [UInt64.mul_assoc, unit, UInt64.mul_one]

/-! ## The mixers -/

theorem finalizer_injective : Function.Injective finalizer := by
  have shifted : Function.Injective (xorShift 33) := (xorShift_involutive (by decide)).injective
  have inner : Function.Injective fun word : UInt64 => word * 0xff51afd7ed558ccd :=
    mul_injective 0x4f74430c22a54005 (by decide)
  have outer : Function.Injective fun word : UInt64 => word * 0xc4ceb9fe1a85ec53 :=
    mul_injective 0x9cb4b2f8129337db (by decide)
  exact shifted.comp (outer.comp (shifted.comp (inner.comp shifted)))

theorem murmur_injective_seed (word : UInt64) : Function.Injective (murmur word) := by
  intro left right same
  exact (UInt64.xor_right_inj (finalizer word)).mp same

theorem murmur_eq_iff {left right seed : UInt64} :
    murmur left seed = murmur right seed ↔ left = right :=
  (UInt64.xor_left_inj seed).trans finalizer_injective.eq_iff

theorem combine_injective_first (second : UInt64) :
    Function.Injective fun first => combine first second := by
  have shifted : Function.Injective (xorShift 47) := (xorShift_involutive (by decide)).injective
  have scaled : Function.Injective fun word => word * combineMultiplier :=
    mul_injective 0xdc56e6f5090b32d9 (by decide)
  have joined : Function.Injective fun word => second ^^^ word :=
    fun _ _ => (UInt64.xor_right_inj second).mp
  have entered : Function.Injective fun word => word ^^^ second :=
    fun _ _ => (UInt64.xor_left_inj second).mp
  exact scaled.comp (shifted.comp (scaled.comp (joined.comp (shifted.comp (scaled.comp entered)))))

/-! ## Hashes joined without order -/

/-- The exclusive or of all words of a list. -/
def xorAll (words : List UInt64) : UInt64 :=
  words.foldr (· ^^^ ·) 0

@[simp] theorem xorAll_nil : xorAll [] = 0 := rfl

@[simp] theorem xorAll_cons (word : UInt64) (words : List UInt64) :
    xorAll (word :: words) = word ^^^ xorAll words := rfl

theorem xorAll_perm {left right : List UInt64} (perm : left.Perm right) :
    xorAll left = xorAll right :=
  perm.foldr_eq 0

end QueryResult.Hash

import QueryResult.Bytes

/-!
# Binary floating point, by its bits

A floating-point number is held as its IEEE 754 bit pattern. A `Format` knows
how to take a pattern apart: sign, magnitude and significand. On patterns this
module defines the comparisons of the numbers they stand for and their decimal
text with six places, all in exact integer arithmetic.
-/

set_option autoImplicit false

namespace QueryResult.Ieee

/-- A binary interchange format. -/
structure Format where
  /-- The weight of the sign bit. -/
  signWeight : Nat
  /-- The magnitude of infinity; greater magnitudes are not numbers. -/
  infinity : Nat
  /-- The weight of the lowest exponent bit. -/
  hiddenBit : Nat
  /-- The least positive number is two to the negative of this. -/
  unitExponent : Nat
  deriving DecidableEq, Repr

def single : Format := ⟨0x80000000, 0x7f800000, 0x800000, 149⟩

def double : Format := ⟨0x8000000000000000, 0x7ff0000000000000, 0x10000000000000, 1074⟩

namespace Format

variable (format : Format)

def magnitude (bits : Nat) : Nat :=
  bits % format.signWeight

def isNegative (bits : Nat) : Bool :=
  decide (format.signWeight ≤ bits)

/-- Whether the pattern stands for no number. -/
def isNaN (bits : Nat) : Bool :=
  decide (format.infinity < format.magnitude bits)

def isZero (bits : Nat) : Bool :=
  decide (format.magnitude bits = 0)

/-- The magnitude with its sign. It orders the numbers, since magnitudes grow with the numbers
they stand for, and both zeros have it zero. -/
def signedMagnitude (bits : Nat) : Int :=
  if format.isNegative bits then -(format.magnitude bits : Int) else format.magnitude bits

/-- Numerical equality: no pattern that is not a number equals anything, and both zeros are
equal. -/
def numberEq (left right : Nat) : Bool :=
  !format.isNaN left && !format.isNaN right &&
    (decide (left = right) || (format.isZero left && format.isZero right))

/-- Numerical order: false as soon as one side is not a number. -/
def numberLt (left right : Nat) : Bool :=
  !format.isNaN left && !format.isNaN right &&
    decide (format.signedMagnitude left < format.signedMagnitude right)

/-- Equality under which all patterns that are not numbers are equal. -/
def sameNumber (left right : Nat) : Bool :=
  format.numberEq left right || (format.isNaN left && format.isNaN right)

/-- The order in which every pattern that is not a number comes after every number. -/
def order (left right : Nat) : Ordering :=
  if format.isNaN left || format.isNaN right then
    compare (format.isNaN left) (format.isNaN right)
  else if format.numberLt left right then .lt
  else if format.numberLt right left then .gt
  else .eq

/-- The significand as an integer, and the exponent of two that scales it, counted from the
least positive number. -/
def significand (bits : Nat) : Nat × Nat :=
  let exponent := format.magnitude bits / format.hiddenBit
  let fraction := format.magnitude bits % format.hiddenBit
  if exponent = 0 then (fraction, 0) else (format.hiddenBit + fraction, exponent - 1)

end Format

/-- The quotient rounded to the nearest integer; a half goes to the even neighbour. -/
def roundedQuotient (numerator denominator : Nat) : Nat :=
  let quotient := numerator / denominator
  let double := 2 * (numerator % denominator)
  if double < denominator then quotient
  else if denominator < double then quotient + 1
  else quotient + quotient % 2

/-- A number of millionths as a decimal with six places. -/
def millionthsText (millionths : Nat) : String :=
  let places := (millionths % 1000000).repr
  (millionths / 1000000).repr ++ "." ++ String.ofList (List.replicate (6 - places.length) '0') ++
    places

/-- The decimal text of a pattern: six places, rounded to nearest with ties to even, and a sign
whenever the sign bit is set. -/
def Format.text (format : Format) (bits : Nat) : String :=
  let sign := if format.isNegative bits then "-" else ""
  if format.isNaN bits then sign ++ "nan"
  else if format.magnitude bits = format.infinity then sign ++ "inf"
  else
    let parts := format.significand bits
    sign ++ millionthsText
      (roundedQuotient (parts.1 * Nat.pow 2 parts.2 * 1000000) (Nat.pow 2 format.unitExponent))

/-- The 32-bit pattern that represents its class of equal numbers: one pattern for all that are
not numbers, and the positive one for both zeros. -/
def canonicalSingle (bits : UInt32) : UInt32 :=
  if single.isNaN bits.toNat then 0x7fc00000
  else if single.isZero bits.toNat then 0
  else bits

/-- The 64-bit pattern that represents its class of equal numbers. -/
def canonicalDouble (bits : UInt64) : UInt64 :=
  if double.isNaN bits.toNat then 0x7ff8000000000000
  else if double.isZero bits.toNat then 0
  else bits

end QueryResult.Ieee

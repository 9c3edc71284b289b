/-!
# Binary floating-point numbers

A 64-bit floating-point number is its bit pattern: a sign, eleven bits of exponent and 52 bits of
fraction.  Every finite number is a whole multiple of the least positive one, `2⁻¹⁰⁷⁴`; `units` is
that multiple, so that order and equality are those of integers.  An infinity has the units that its
pattern would stand for as a number, more than any finite number has, and keeps its place in the
order.
-/

namespace RowSieve

/-- A floating-point number, by its bit pattern. -/
structure Binary64 where
  bits : UInt64
  deriving DecidableEq

namespace Binary64

/-! ### The parts of a pattern -/

/-- The sign bit is set. -/
def isNegative (x : Binary64) : Bool :=
  0x8000000000000000 ≤ x.bits.toNat

/-- The eleven bits of exponent. -/
def exponent (x : Binary64) : Nat :=
  x.bits.toNat / 0x10000000000000 % 0x800

/-- The 52 bits of fraction. -/
def fraction (x : Binary64) : Nat :=
  x.bits.toNat % 0x10000000000000

/-- Not a number. -/
def isNaN (x : Binary64) : Bool :=
  x.exponent = 2047 && x.fraction ≠ 0

/-- One of the two infinities. -/
def isInfinite (x : Binary64) : Bool :=
  x.exponent = 2047 && x.fraction = 0

/-- One of the two zeros. -/
def isZero (x : Binary64) : Bool :=
  x.exponent = 0 && x.fraction = 0

/-- The fraction with the leading one that the exponent implies. -/
def significand (x : Binary64) : Nat :=
  if x.exponent = 0 then x.fraction else 0x10000000000000 + x.fraction

/-- The significand counts multiples of this power of two of the least positive number. -/
def scale (x : Binary64) : Nat :=
  x.exponent - 1

/-! ### Exact value and order -/

/-- The value as a multiple of `2⁻¹⁰⁷⁴`. -/
def units (x : Binary64) : Int :=
  let magnitude : Int := (x.significand <<< x.scale : Nat)
  if x.isNegative then -magnitude else magnitude

/-- The units of the number one. -/
def unitsPerOne : Nat :=
  1 <<< 1074

/-- The order of two numbers; none if one of them is not a number. -/
def compare? (x y : Binary64) : Option Ordering :=
  if x.isNaN || y.isNaN then none else some (compare x.units y.units)

/-! ### Equality -/

/-- The pattern of zero. -/
def zero : Binary64 :=
  ⟨0⟩

/-- The pattern that stands for everything that is not a number. -/
def nan : Binary64 :=
  ⟨0x7FF8000000000000⟩

/-- One number for both zeros and one for all that is not a number. -/
def canonical (x : Binary64) : Binary64 :=
  if x.isNaN then nan else if x.isZero then zero else x

/-- The same number: the zeros are one, and so is all that is not a number. -/
def same (x y : Binary64) : Bool :=
  x.canonical = y.canonical

/-- Equal numbers: the zeros are equal, and what is not a number equals nothing. -/
def equals (x y : Binary64) : Bool :=
  compare? x y = some .eq

/-- Both zeros as one; other patterns stay. -/
def foldZero (x : Binary64) : Binary64 :=
  if x.equals zero then zero else x

/-! ### Rounding integers -/

/-- The quotient rounded to the nearest integer, halves to the even one. -/
def divHalfEven (n d : Nat) : Nat :=
  let quotient := n / d
  let rest := n % d
  if 2 * rest < d || 2 * rest = d && quotient % 2 = 0 then quotient else quotient + 1

/-- The pattern of the number nearest to a natural number, halves to the even significand.  A
significand that rounds up to the next power of two carries into the exponent. -/
def patternOfNat (n : Nat) : Nat :=
  if n = 0 then 0
  else
    let top := n.log2
    let significand := if top ≤ 52 then n <<< (52 - top) else divHalfEven n (1 <<< (top - 52))
    (1022 + top) * 0x10000000000000 + significand

/-- The number nearest to an integer. -/
def ofInt64 (a : Int64) : Binary64 :=
  let sign := if a.toInt < 0 then 0x8000000000000000 else 0
  ⟨UInt64.ofNat (sign + patternOfNat a.toInt.natAbs)⟩

end Binary64

end RowSieve

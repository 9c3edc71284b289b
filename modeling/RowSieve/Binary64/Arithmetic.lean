import RowSieve.Binary64

/-!
# Arithmetic of floating-point numbers

Subtraction, cutting off at the point, and conversion to integers, as IEEE 754 has them: the exact
result, rounded to the nearest number, halves to the even significand.  With these an integer is
compared with a number, without rounding the integer.
-/

namespace RowSieve.Binary64

/-! ### Patterns -/

/-- The pattern of infinity, without its sign; those of all numbers are below it. -/
def infinitePattern : Nat :=
  0x7FF0000000000000

/-- A pattern below the sign bit, with a sign. -/
def signed (negative : Bool) (pattern : Nat) : Binary64 :=
  ⟨UInt64.ofNat ((if negative then 0x8000000000000000 else 0) + pattern)⟩

/-- The number with the other sign. -/
def neg (x : Binary64) : Binary64 :=
  ⟨x.bits ^^^ 0x8000000000000000⟩

/-- The pattern, without its sign, of the number nearest to so many units.  A significand that
rounds up to the next power of two carries into the exponent, and past the largest number there is
infinity. -/
def patternOfUnits (units : Nat) : Nat :=
  let scale := units.log2 - 52
  let pattern := scale * 0x10000000000000 + divHalfEven units (1 <<< scale)
  if pattern < infinitePattern then pattern else infinitePattern

/-! ### Operations -/

/-- The difference.  Infinities of one sign have none; a zero is negative only if a positive zero is
taken from a negative one. -/
def sub (x y : Binary64) : Binary64 :=
  if x.isNaN || y.isNaN then nan
  else if x.isInfinite then if y.isInfinite && x.isNegative = y.isNegative then nan else x
  else if y.isInfinite then y.neg
  else
    let difference := x.units - y.units
    if difference = 0 then signed (x.isNegative && !y.isNegative) 0
    else signed (difference < 0) (patternOfUnits difference.natAbs)

/-- The number without its places after the point.  Numbers below one are all places after the
point, and from `2⁵²` on there are none. -/
def trunc (x : Binary64) : Binary64 :=
  if x.exponent < 1023 then signed x.isNegative 0
  else
    let places := 1075 - x.exponent
    ⟨UInt64.ofNat (x.bits.toNat - x.bits.toNat % (1 <<< places))⟩

/-- The integer of a number without its places after the point: the closest there is if it is out
of range, and 0 for what is not a number. -/
def toInt64 (x : Binary64) : Int64 :=
  if x.isNaN then 0 else .ofIntClamp (x.units.tdiv unitsPerOne)

/-! ### Comparisons -/

/-- The first number comes before the second. -/
def below (x y : Binary64) : Bool :=
  compare? x y = some .lt

/-- The first number is the second or comes after it. -/
def atLeast (x y : Binary64) : Bool :=
  compare? x y = some .eq || compare? x y = some .gt

/-- The number `2⁶³`, past all integers. -/
def integerLimit : Binary64 :=
  ⟨0x43E0000000000000⟩

/-- The order of an integer and a number; none if the number is not one.  A number out of the range
of integers lies past all of them.  Else its whole part is an integer, and where that is the one
compared, the places after the point decide. -/
def compareInt? (a : Int64) (x : Binary64) : Option Ordering :=
  if x.isNaN then none
  else if x.atLeast integerLimit then some .lt
  else if x.below integerLimit.neg then some .gt
  else
    let whole := x.trunc
    some ((compare a.toInt whole.toInt64.toInt).then
      ((compare? zero (x.sub whole)).getD .eq))

end RowSieve.Binary64

import RowSieve.Binary64

/-!
# Decimal text of floating-point numbers

A number is written with the fewest digits that read back as it.  The decimals that read back form
an interval around the number; among the grids of multiples of a power of ten, the coarsest that
has a point in the interval gives the digits.  There is no exponent and no point without digits
after it.
-/

namespace RowSieve.Binary64

/-! ### The interval of decimals that read back -/

/-- The reals that round to a number, in quarters of `2⁻¹⁰⁷⁴`. -/
structure Neighbourhood where
  low : Nat
  centre : Nat
  high : Nat
  /-- The ends round to the number as well. -/
  closed : Bool

/-- The reals that round to the magnitude of a finite number: half way to the neighbours on either
side, where the lower neighbour of a power of two is closer.  Halves go to even significands. -/
def neighbourhood (x : Binary64) : Neighbourhood :=
  let unit := 1 <<< x.scale
  let below := if x.fraction = 0 && 1 < x.exponent then unit else 2 * unit
  let centre := 4 * x.significand * unit
  ⟨centre - below, centre, centre + 2 * unit, x.significand % 2 = 0⟩

/-- The multiple of `10 ^ exponent` next to the centre that lies in the neighbourhood, given as the
factor.  Of two such the nearer is taken, and half way the upper one. -/
def Neighbourhood.onGrid? (r : Neighbourhood) (exponent : Int) : Option Nat :=
  let step := Nat.pow 10 exponent.toNat <<< 1076
  let fine := Nat.pow 10 (-exponent).toNat
  let centre := r.centre * fine
  let inside (point : Nat) : Bool :=
    let place := point * step
    if r.closed then r.low * fine ≤ place && place ≤ r.high * fine
    else r.low * fine < place && place < r.high * fine
  let lower := centre / step
  match inside lower, inside (lower + 1) with
  | false, false => none
  | true, false => some lower
  | false, true => some (lower + 1)
  | true, true => if 2 * (centre - lower * step) < step then some lower else some (lower + 1)

/-- The digits and the power of ten of the shortest decimal in the neighbourhood of a positive
number.  The search starts above the number and needs at most seventeen digits. -/
def shortest (x : Binary64) : Nat × Int :=
  let top : Int := (x.significand.log2 + x.scale + 1 : Nat) - 1074
  let start := top * 30103 / 100000 + 1
  let neighbourhood := x.neighbourhood
  let found := (List.range 20).findSome? fun (down : Nat) =>
    (neighbourhood.onGrid? (start - down)).map fun digits => (digits, start - down)
  found.getD (0, 0)

/-! ### Text -/

/-- So many zeros. -/
def zeros (n : Nat) : String :=
  String.ofList (List.replicate n '0')

/-- The decimal `digits · 10 ^ exponent` in positional notation. -/
def positional (digits : Nat) (exponent : Int) : String :=
  let text := toString digits
  if 0 ≤ exponent then text ++ zeros exponent.toNat
  else
    let places := (-exponent).toNat
    let padded := zeros (places + 1 - text.length) ++ text
    let whole := padded.length - places
    String.ofList (padded.toList.take whole) ++ "." ++ String.ofList (padded.toList.drop whole)

/-- The text of a number. -/
def text (x : Binary64) : String :=
  if x.isNaN then "NaN"
  else
    let sign := if x.isNegative then "-" else ""
    if x.isInfinite then sign ++ "inf"
    else if x.isZero then sign ++ "0"
    else
      let (digits, exponent) := x.shortest
      sign ++ positional digits exponent

end RowSieve.Binary64

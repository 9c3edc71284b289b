import RowSieve.Binary64.Decimal
import RowSieve.Hasher
import RowSieve.Kind
import RowSieve.Text.Quoted
import Std.Data.HashSet

/-!
# Scalars

The value of one cell.  Two scalars are equal when they are the same number, truth value or text;
the two zeros are one number, and so is all that is not a number.  Equal scalars hash alike, so
scalars can be collected in sets.
-/

namespace RowSieve

/-- The value of a cell. -/
inductive Scalar where
  | null
  | int (value : Int64)
  | float (value : Binary64)
  | boolean (value : Bool)
  | string (value : String)

namespace Scalar

/-- There is no value. -/
def isNull : Scalar → Bool
  | .null => true
  | _ => false

/-- The type of column that the value belongs to; a null belongs to none. -/
def kind? : Scalar → Option Kind
  | .null => none
  | .int _ => some .int
  | .float _ => some .float
  | .boolean _ => some .boolean
  | .string _ => some .string

/-- The name of the type, or of null. -/
def kindName (scalar : Scalar) : String :=
  match scalar.kind? with
  | some kind => kind.name
  | none => "null"

/-- The value of a slot. -/
def ofSlot : (kind : Kind) → kind.Slot → Scalar
  | .int, value => .int value
  | .float, value => .float value
  | .boolean, value => .boolean value
  | .string, value => .string value

/-- A number as a floating-point number. -/
def toFloat? : Scalar → Option Binary64
  | .int value => some (.ofInt64 value)
  | .float value => some value
  | _ => none

/-- The text of a value; texts are quoted. -/
def display : Scalar → String
  | .null => "null"
  | .int value => toString value.toInt
  | .float value => value.text
  | .boolean value => if value then "true" else "false"
  | .string value => Text.quote value

/-! ### Equality and hashing -/

/-- Equality of values, with one zero and one not-a-number. -/
def same : Scalar → Scalar → Bool
  | .null, .null => true
  | .int left, .int right => left = right
  | .float left, .float right => left.same right
  | .boolean left, .boolean right => left = right
  | .string left, .string right => left = right
  | _, _ => false

instance : BEq Scalar := ⟨same⟩

/-- Hand over to a hasher which form the value has and then what it holds; the zeros are folded
into one, as equality asks. -/
def feed (hasher : Hasher) (state : hasher.State) : Scalar → hasher.State
  | .null => hasher.tag state 0
  | .int value => hasher.int (hasher.tag state 1) value
  | .float value => hasher.float (hasher.tag state 2) value.foldZero
  | .boolean value => hasher.boolean (hasher.tag state 3) value
  | .string value => hasher.string (hasher.tag state 4) value

/-- The hash of a value. -/
def hashCode (hasher : Hasher) (value : Scalar) : UInt64 :=
  hasher.finish (value.feed hasher hasher.start)

/-- Values hashed by a hasher. -/
abbrev hashable (hasher : Hasher) : Hashable Scalar :=
  ⟨hashCode hasher⟩

/-- Sets of values that are found by their hash. -/
abbrev HashedSet (hasher : Hasher) : Type :=
  @Std.HashSet Scalar inferInstance (hashable hasher)

/-- The positions of the values that are not in the set when the list is inserted into it one by
one, counted from `position`. -/
def newPositions {hasher : Hasher} (seen : HashedSet hasher) (position : Nat) :
    List Scalar → List Nat
  | [] => []
  | value :: rest =>
    let (known, seen) := seen.containsThenInsert value
    let later := newPositions seen (position + 1) rest
    if known then later else position :: later

/-- The positions of the values that are new when the list is inserted into an empty set. -/
def firstOccurrencesBy (hasher : Hasher) (values : List Scalar) : List Nat :=
  newPositions (∅ : HashedSet hasher) 0 values

/-- The positions of the values without an equal value before them. -/
def firstOccurrences (values : List Scalar) : List Nat :=
  firstOccurrencesBy .mixing values

end Scalar

end RowSieve

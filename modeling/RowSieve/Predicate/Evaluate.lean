import RowSieve.Binary64.Arithmetic
import RowSieve.Mask
import RowSieve.Predicate
import RowSieve.Table
import RowSieve.Text.Search

/-!
# Evaluating predicates

A predicate is evaluated for all rows at once: each leaf gives a bit for every row of its column,
and the connectives combine bits.  Where columns come from is left open, so that the same
evaluation runs over a table and over a view.

A comparison never holds of a null.  Integers and floating-point numbers compare by their exact
values, texts by the bytes of their encoding, and truth values only for equality.
-/

namespace RowSieve

/-- The comparison of a slot with a literal; none if the two types do not compare. -/
def CompareOp.slotTest? (op : CompareOp) : (kind : Kind) → Literal → Option (kind.Slot → Bool)
  | .int, .int literal => some fun slot => op.holds (compare slot.toInt literal.toInt)
  | .int, .float literal => some fun slot => op.holdsOf (Binary64.compareInt? slot literal)
  | .float, .int literal =>
    some fun slot => op.holdsOf ((Binary64.compareInt? literal slot).map Ordering.swap)
  | .float, .float literal => some fun slot => op.holdsOfFloats slot literal
  | .boolean, .boolean literal => some fun slot => op.holds (compare slot literal)
  | .string, .string literal => some fun slot => op.holds (Text.compareBytes slot literal)
  | _, _ => none

namespace Test

/-- The bits of a comparison, none of them at a null. -/
def compareBits (op : CompareOp) (literal : Literal) (name : String) (column : Column) :
    Outcome DataError Bits :=
  if column.kind = .boolean && literal.kind = .boolean && !op.isEquality then
    .error (.error (.typeMismatch s!"ordering comparison {op.name} on column {name}"
      "int, float or string" Kind.boolean.name))
  else
    match op.slotTest? column.kind literal with
    | none =>
      .error (.error (.typeMismatch s!"comparison on column {name}" column.kind.name
        literal.kind.name))
    | some holds =>
      let bits := Bits.ofList (column.slots.toList.map holds)
      match column.validity with
      | some validity => Outcome.ofFaulty (bits.and validity)
      | none => .ok bits

/-- The bits of a column of truth values, none of them at a null. -/
def trueBits (name : String) (column : Column) : Outcome DataError Bits :=
  match column.booleans? with
  | none =>
    .error (.error (.typeMismatch s!"predicate column {name}" Kind.boolean.name column.kind.name))
  | some slots =>
    Outcome.ofFaulty <| (slots.toList.zipIdx.mapM fun (entry : Bool × Nat) =>
      if entry.1 then column.isValid entry.2 else .ok false).map Bits.ofList

/-- The bits of the rows that hold a value, or of those that do not. -/
def validBits (valid : Bool) (column : Column) : Outcome DataError Bits :=
  Outcome.ofFaulty <| ((List.range column.length).mapM fun row =>
    (column.isValid row).map (· == valid)).map Bits.ofList

/-- The rows of a column that pass a test. -/
def bits (test : Test) (name : String) (column : Column) : Outcome DataError Bits :=
  match test with
  | .compare op literal => compareBits op literal name column
  | .isTrue => trueBits name column
  | .isNull => validBits false column
  | .isNotNull => validBits true column

end Test

/-- The rows that satisfy a predicate.  Columns are asked for leaf by leaf, from left to right,
and the first leaf that gives no bits ends the evaluation. -/
def Predicate.evaluate {m : Type → Type} [Monad m] (column : String → m Column)
    (settle : Outcome DataError Bits → m Bits) : Predicate → m Bits
  | .leaf name test => do
    let found ← column name
    settle (test.bits name found)
  | .and left right => do
    let leftBits ← left.evaluate column settle
    let rightBits ← right.evaluate column settle
    settle (Outcome.ofFaulty (leftBits.and rightBits))
  | .or left right => do
    let leftBits ← left.evaluate column settle
    let rightBits ← right.evaluate column settle
    settle (Outcome.ofFaulty (leftBits.or rightBits))
  | .not inner => do
    let bits ← inner.evaluate column settle
    return bits.not

/-- The rows of a table that satisfy a predicate. -/
def Table.select (table : Table) (predicate : Predicate) : Outcome DataError Mask :=
  (predicate.evaluate (fun name => Outcome.ofExcept (table.column name)) id).map Mask.mk

end RowSieve

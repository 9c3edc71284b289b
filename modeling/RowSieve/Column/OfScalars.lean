import RowSieve.Column

/-!
# Columns from scalars

A column is built from the values of its cells, either of a given type, to which integers widen if
it is that of floating-point numbers, or of the type that the values themselves have.
-/

namespace RowSieve.Column

/-- The slot that a value takes in a column of a type.  Integers widen to floating-point numbers. -/
def slotOf? : (kind : Kind) → Scalar → Option kind.Slot
  | kind, .null => some kind.placeholder
  | .int, .int value => some value
  | .float, .float value => some value
  | .float, .int value => some (.ofInt64 value)
  | .boolean, .boolean value => some value
  | .string, .string value => some value
  | _, _ => none

/-- The slots of values in a column of a type; the first value that fits none is refused. -/
def slotsOf (kind : Kind) (values : List Scalar) : Except DataError (List kind.Slot) :=
  values.mapM fun value =>
    match slotOf? kind value with
    | some slot => .ok slot
    | none => .error (.typeMismatch "column values" kind.name value.kindName)

/-- The column of a type with these cells. -/
def ofScalars (kind : Kind) (values : List Scalar) : Except DataError Column := do
  let slots ← slotsOf kind values
  withValidity ⟨kind, slots.toArray, none⟩ (.ofList (values.map fun value => !value.isNull))

/-- The type of the values from a row on, when `expected` is the type of those before.  Every
value has the type of the first; nulls have any. -/
def inferKind (expected : Option Kind) (row : Nat) : List Scalar → Except DataError (Option Kind)
  | [] => .ok expected
  | value :: rest =>
    match value.kind?, expected with
    | none, _ => inferKind expected (row + 1) rest
    | some actual, none => inferKind (some actual) (row + 1) rest
    | some actual, some known =>
      if known = actual then inferKind expected (row + 1) rest
      else
        .error (.typeMismatch s!"inferred column value at row {row}" known.name actual.name)

/-- The column with these cells, of the type that they have.  Without any value it is a column of
floating-point numbers. -/
def infer (values : List Scalar) : Except DataError Column := do
  let kind ← inferKind none 0 values
  ofScalars (kind.getD .float) values

end RowSieve.Column

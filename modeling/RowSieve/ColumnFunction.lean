import RowSieve.Column.OfScalars
import RowSieve.Outcome

/-!
# Column functions

A column function computes a column from columns.  It may refuse its arguments, with a failure, or
give up altogether, with a fault.  A function on cells is lifted to columns row by row.
-/

namespace RowSieve

/-- A function from columns to a column. -/
abbrev ColumnFunction := List Column → Outcome Failure Column

/-- A refusal in a function's own words. -/
def ColumnFunction.refuse (message : String) : Outcome Failure Column :=
  .error (.error (.text message))

/-- The cells of a row, one of each column; null where a column has no such row. -/
def Column.rowOf (columns : List Column) (row : Nat) : List Scalar :=
  columns.map (·.cell row)

/-- A function on the cells of a row, applied to every row of the first argument.  The result has
the type of the values that come out. -/
def ColumnFunction.elementwise (f : List Scalar → Scalar) : ColumnFunction
  | [] => refuse "elementwise function needs at least one argument"
  | first :: rest =>
    let results := (List.range first.length).map fun row => f (Column.rowOf (first :: rest) row)
    Outcome.ofExcept ((Column.infer results).mapError Failure.data)

end RowSieve

import RowSieve.Mask
import RowSieve.Registry
import RowSieve.Table
import Std.Data.HashMap

/-!
# Views

A view shows a table through a mask.  It has functions of its own and virtual columns, which are
computed by these functions from the columns of the view when they are asked for.
-/

namespace RowSieve

/-- A column computed by a function from other columns. -/
structure VirtualColumn where
  name : String
  function : String
  sources : List String
  deriving DecidableEq

/-- A table seen through a mask, with functions and virtual columns. -/
structure View where
  table : Table
  /-- The rows that are visible; absent when all are. -/
  mask : Option Mask
  functions : Registry
  /-- The virtual columns, in the order in which they were declared. -/
  virtuals : List VirtualColumn
  /-- Where a virtual column stands among the virtual columns, by its name. -/
  positions : Std.HashMap String Nat
  /-- How deep virtual columns may nest in one request. -/
  maxDepth : Nat

namespace View

/-- The depth that a view allows unless told otherwise. -/
def defaultMaxDepth : Nat :=
  64

/-- The view that shows every row of a table. -/
def ofTable (table : Table) : View :=
  ⟨table, none, .empty, [], ∅, defaultMaxDepth⟩

/-- The same view with another limit of depth. -/
def withMaxDepth (view : View) (maxDepth : Nat) : View :=
  { view with maxDepth }

/-- The view hides rows, or could. -/
def isFiltered (view : View) : Bool :=
  view.mask.isSome

/-- The number of visible rows. -/
def visibleCount (view : View) : Nat :=
  match view.mask with
  | some mask => mask.count
  | none => view.table.rowCount

/-- The visible rows of the table, ascending. -/
def rows (view : View) : List Nat :=
  match view.mask with
  | some mask => mask.rows
  | none => List.range view.table.rowCount

/-- The virtual column of a name. -/
def virtualColumn? (view : View) (name : String) : Option VirtualColumn :=
  view.positions[name]?.bind fun position => view.virtuals[position]?

/-- The view with one more virtual column, declared after all others. -/
def insertVirtual (view : View) (column : VirtualColumn) : View :=
  { view with
    virtuals := view.virtuals ++ [column]
    positions := view.positions.insert column.name view.virtuals.length }

/-- There is a stored or a virtual column of this name. -/
def contains (view : View) (name : String) : Bool :=
  view.table.contains name || view.positions.contains name

/-- The names of the stored columns and then those of the virtual ones. -/
def columnNames (view : View) : List String :=
  view.table.names ++ view.virtuals.map (·.name)

end View

end RowSieve

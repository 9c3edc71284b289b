import RowSieve.Column

/-!
# Tables

A table is a list of named columns.  Names differ, and all columns have as many rows as the first.
-/

namespace RowSieve

/-- Named columns, in the order in which they were added. -/
structure Table where
  columns : List (String × Column)

namespace Table

/-- The table without columns. -/
def empty : Table :=
  ⟨[]⟩

/-- The number of rows; none if there are no columns. -/
def rowCount (table : Table) : Nat :=
  match table.columns with
  | [] => 0
  | (_, first) :: _ => first.length

/-- The number of columns. -/
def columnCount (table : Table) : Nat :=
  table.columns.length

/-- The names of the columns. -/
def names (table : Table) : List String :=
  table.columns.map (·.1)

/-- The names and types of the columns. -/
def schema (table : Table) : List (String × Kind) :=
  table.columns.map fun (name, column) => (name, column.kind)

/-- The column of a name. -/
def get? (table : Table) (name : String) : Option Column :=
  table.columns.lookup name

/-- There is a column of this name. -/
def contains (table : Table) (name : String) : Bool :=
  (table.get? name).isSome

/-- The position of the column of a name. -/
def indexOf? (table : Table) (name : String) : Option Nat :=
  table.names.idxOf? name

/-- The column of a name, or the error that there is none. -/
def column (table : Table) (name : String) : Except DataError Column :=
  match table.get? name with
  | some column => .ok column
  | none => .error (.unknownColumn name)

/-- Add a column under a name that is still free.  The first column decides the number of rows. -/
def addColumn (table : Table) (name : String) (column : Column) : Except DataError Table :=
  if table.contains name then .error (.duplicateColumn name)
  else if !table.columns.isEmpty && column.length ≠ table.rowCount then
    .error (.lengthMismatch s!"column {name}" table.rowCount column.length)
  else .ok ⟨table.columns ++ [(name, column)]⟩

/-- The table of these columns. -/
def ofColumns (columns : List (String × Column)) : Except DataError Table :=
  columns.foldlM (fun table (name, column) => table.addColumn name column) empty

end Table

end RowSieve

import RowSieve.Table
import Std.Data.HashMap

/-!
# Building tables in place

A table under construction is kept in four parts: the names and types of the columns, the columns
themselves, where the column of a name stands, and the number of rows.  A column that is added is
checked first and then noted in each of them.
-/

namespace RowSieve

/-- A table under construction. -/
structure Builder where
  /-- The names and types of the columns, in the order in which they were added. -/
  schema : Array (String × Kind)
  columns : Array Column
  /-- Where the column of a name stands among the columns. -/
  index : Std.HashMap String Nat
  rows : Nat

namespace Builder

/-- The builder without columns. -/
def empty : Builder :=
  ⟨#[], #[], ∅, 0⟩

/-- The names of the columns. -/
def names (builder : Builder) : List String :=
  builder.schema.toList.map (·.1)

/-- The position of the column of a name. -/
def indexOf? (builder : Builder) (name : String) : Option Nat :=
  builder.index[name]?

/-- The column of a name. -/
def get? (builder : Builder) (name : String) : Option Column :=
  (builder.indexOf? name).bind (builder.columns[·]?)

/-- The table that has been built. -/
def finish (builder : Builder) : Table :=
  ⟨builder.names.zip builder.columns.toList⟩

end Builder

/-- A computation that changes a builder in place.  An error leaves the builder as it is at that
moment. -/
abbrev Building := EStateM DataError Builder

namespace Building

/-! ### Steps -/

/-- Go on if this holds of the builder, and otherwise stop at an error. -/
def require (condition : Builder → Bool) (error : Builder → DataError) : Building Unit := do
  let builder ← get
  if condition builder then pure () else throw (error builder)

/-- Set the number of rows. -/
def setRows (rows : Nat) : Building Unit :=
  modify fun builder => { builder with rows }

/-- Note that the next column has this name. -/
def notePosition (name : String) : Building Unit :=
  modify fun builder => { builder with index := builder.index.insert name builder.columns.size }

/-- Note the name and type of the next column. -/
def noteType (name : String) (kind : Kind) : Building Unit :=
  modify fun builder => { builder with schema := builder.schema.push (name, kind) }

/-- Put a column after the others. -/
def push (column : Column) : Building Unit :=
  modify fun builder => { builder with columns := builder.columns.push column }

/-! ### Adding columns -/

/-- Add a column under a name that is still free.  The first column decides the number of rows. -/
def add (name : String) (column : Column) : Building Unit := do
  require (fun builder => !builder.index.contains name) fun _ => .duplicateColumn name
  require (fun builder => builder.columns.isEmpty || column.length = builder.rows) fun builder =>
    .lengthMismatch s!"column {name}" builder.rows column.length
  setRows column.length
  notePosition name
  noteType name column.kind
  push column

/-- Tell how a step ends, and go on. -/
def attempt (step : Building Unit) : Building (Except DataError Unit) := fun builder =>
  match step builder with
  | .ok _ after => .ok (.ok ()) after
  | .error cause after => .ok (.error cause) after

/-- Add columns one after another, and go on whatever becomes of them. -/
def addEach (calls : List (String × Column)) : Building (List (Except DataError Unit)) :=
  calls.mapM fun call => attempt (add call.1 call.2)

/-- Add columns one after another, up to the first that cannot be added. -/
def addAll (calls : List (String × Column)) : Building Unit :=
  forM calls fun call => add call.1 call.2

end Building

/-- The builder with these columns. -/
def Builder.ofColumns (calls : List (String × Column)) : Except DataError Builder :=
  match Building.addAll calls .empty with
  | .ok _ builder => .ok builder
  | .error cause _ => .error cause

end RowSieve

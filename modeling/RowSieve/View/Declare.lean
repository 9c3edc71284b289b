import RowSieve.TextFunction
import RowSieve.View.Journal

/-!
# Setting up views

A view is made from a table, with or without a mask, and then given functions and virtual columns.
A virtual column is declared after the columns that it is computed from, so declarations never
form a circle.
-/

namespace RowSieve.View

/-- The view that shows the selected rows of a table. -/
def ofMask (table : Table) (mask : Mask) : Run View :=
  if mask.length = table.rowCount then
    ⟨.ok { ofTable table with mask := some mask }, [.masked mask.count table.rowCount]⟩
  else
    .failed (.data (.lengthMismatch "filter mask" table.rowCount mask.length))

/-- Give the view a function. -/
def register (view : View) (name : String) (function : ColumnFunction) : Except EvalError View :=
  (view.functions.register name function).map fun functions => { view with functions }

/-- Give the view the functions on texts, one after another, up to the first whose name is taken. -/
def registerTextFunctions (view : View) : View × Except EvalError Unit :=
  let (functions, outcome) := view.functions.registerAll TextFunction.named
  ({ view with functions }, outcome)

/-- Declare a virtual column under a name that is still free.  Its function and its sources must be
known. -/
def define (view : View) (name function : String) (sources : List String) : Run View :=
  if view.contains name then .failed (.data (.duplicateColumn name))
  else if !view.functions.contains function then .failed (.unknownFunction function)
  else
    match sources.find? fun source => !view.contains source with
    | some missing => .failed (.data (.unknownColumn missing))
    | none =>
      let column : VirtualColumn := ⟨name, function, sources⟩
      ⟨.ok (view.insertVirtual column), [.declared column]⟩

end RowSieve.View

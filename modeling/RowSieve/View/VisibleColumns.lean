import RowSieve.View.Resolver

/-!
# Reading visible columns

A predicate reads the columns of a view as it reads those of a table, and so it can fail only with
an error about data.  When the resolver gives another error, that error is parked beside the
resolver and the column is called unknown in the meantime.  Once the predicate has failed, a parked
error is the one that counts.
-/

namespace RowSieve

/-- What a predicate reads visible columns from: a resolver, and the first error that it gave. -/
structure VisibleColumns where
  resolver : Resolver
  parked : Option EvalError

/-- A computation that reads visible columns. -/
abbrev Reading := EStateM (Abort DataError) VisibleColumns

namespace Reading

/-- A visible column.  An error of the resolver is parked, unless there is one already, and the
column is called unknown. -/
def column (view : View) (name : String) : Reading Column := fun columns =>
  match view.resolve name columns.resolver with
  | .ok column resolver => .ok column { columns with resolver }
  | .error (.error error) resolver =>
    .error (.error (.unknownColumn name)) ⟨resolver, columns.parked.or (some error)⟩
  | .error (.fault broken) resolver => .error (.fault broken) { columns with resolver }

/-- Take over an outcome.  A fault between columns leaves no path behind. -/
def settle {α : Type} : Outcome DataError α → Reading α
  | .ok value => pure value
  | .error (.error error) => throw (.error error)
  | .error (.fault broken) => do
    modify fun columns => { columns with resolver := { columns.resolver with stuck := [] } }
    throw (.fault broken)

/-- Let a computation read through a resolver.  What it fails with is what was parked, if anything
was. -/
def unpark {α : Type} (reading : Reading α) : Resolve α := fun resolver =>
  match reading ⟨resolver, none⟩ with
  | .ok value columns => .ok value columns.resolver
  | .error (.error error) columns =>
    .error (.error (columns.parked.getD (.data error))) columns.resolver
  | .error (.fault broken) columns => .error (.fault broken) columns.resolver

end Reading

end RowSieve

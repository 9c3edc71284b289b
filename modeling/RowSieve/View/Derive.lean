import RowSieve.Predicate.Evaluate
import RowSieve.View.VisibleColumns

/-!
# Asking views

A view is asked for a column, narrowed by a predicate, or copied into a table of its own.  Each of
these is answered by one resolver, so nothing is computed twice on the way.
-/

namespace RowSieve.View

open Resolve

/-- A column over the visible rows. -/
def evaluate (view : View) (name : String) : Run Column :=
  (view.request name .fresh).1

/-- The cells of a column over the visible rows. -/
def materialize (view : View) (name : String) : Run (List Scalar) :=
  (view.evaluate name).map Column.values

/-! ### Narrowing -/

/-- Set the bits at the given rows; `chosen` are positions in the list of rows. -/
def scatter (length : Nat) (rows : Array Nat) (chosen : List Nat) : Except Fault Bits :=
  chosen.foldlM (fun bits position =>
    match rows[position]? with
    | some row => bits.set row true
    | none => .error (.slotOutOfRange rows.size position)) (Bits.allClear length)

/-- The bits of the table's rows from those of the visible rows. -/
def widen (view : View) (bits : Bits) : Except Fault Bits :=
  match view.mask with
  | none => .ok bits
  | some mask => scatter view.table.rowCount mask.rows.toArray bits.indices

/-- The visible rows that satisfy a predicate, as a mask over the table. -/
def narrow (view : View) (predicate : Predicate) : Resolve Mask := do
  let bits ← (predicate.evaluate (Reading.column view) Reading.settle).unpark
  let wide ← settle [] (Outcome.ofFaulty (view.widen bits))
  let mask : Mask := ⟨wide⟩
  record (.derived mask.count view.table.rowCount)
  pure mask

/-- The view of those visible rows that satisfy a predicate.  The columns that the predicate reads
must all be known before any is computed. -/
def filter (view : View) (predicate : Predicate) : Run View :=
  match predicate.columns.find? fun name => !view.contains name with
  | some missing => .failed (.data (.unknownColumn missing))
  | none =>
    ((view.narrow predicate).run .fresh).1.map fun mask => { view with mask := some mask }

/-! ### Copying -/

/-- Add a column of the view to a table. -/
def copyColumn (view : View) (table : Table) (name : String) : Resolve Table := do
  let column ← view.resolve name
  settle [] (Outcome.ofExcept ((table.addColumn name column).mapError .data))

/-- The table of all columns of the view over its visible rows. -/
def extract (view : View) : Run Table :=
  ((view.columnNames.foldlM view.copyColumn .empty).run .fresh).1

end RowSieve.View

import RowSieve.View.Journal

/-!
# Resolving columns

A resolver answers requests for the columns of one view over its visible rows.  It computes a column
when it is first needed, after the columns that it is computed from, and remembers it for later
requests; what it computed before a request failed is remembered too.

A request follows the sources of virtual columns.  The columns whose sources are being resolved
form its path, outermost first: a column already on the path depends on itself, and the length of
the path is limited.  When a function gives up, the path of that moment stays with the resolver as
`stuck`, and later requests start from it.
-/

namespace RowSieve

/-- What a resolver knows between requests. -/
structure Resolver where
  /-- The columns computed so far. -/
  memo : List (String × Column)
  /-- The columns whose sources were being resolved when a function gave up. -/
  stuck : List String
  /-- What happened in the present request. -/
  journal : List Event

/-- The resolver that has not been asked anything. -/
def Resolver.fresh : Resolver :=
  ⟨[], [], []⟩

/-- A computation that asks a resolver for columns. -/
abbrev Resolve := EStateM (Abort EvalError) Resolver

namespace Resolve

/-- End in an error. -/
def fail {α : Type} (error : EvalError) : Resolve α :=
  throw (.error error)

/-- Note an event. -/
def record (event : Event) : Resolve Unit :=
  modify fun resolver => { resolver with journal := resolver.journal ++ [event] }

/-- Take over an outcome.  A fault leaves the path behind. -/
def settle {α : Type} (path : List String) : Outcome EvalError α → Resolve α
  | .ok value => pure value
  | .error (.error error) => fail error
  | .error (.fault broken) => do
    modify fun resolver => { resolver with stuck := path }
    throw (.fault broken)

/-- The column remembered under a name, or else the computed one, which is then remembered. -/
def remembered (name : String) (compute : Resolve Column) : Resolve Column := do
  let resolver ← get
  match resolver.memo.lookup name with
  | some column => pure column
  | none => do
    let column ← compute
    modify fun resolver => { resolver with memo := (name, column) :: resolver.memo }
    pure column

/-- Let a computation talk to a resolver, with a journal of its own. -/
def run {α : Type} (action : Resolve α) (resolver : Resolver) : Run α × Resolver :=
  match EStateM.run action { resolver with journal := [] } with
  | .ok value resolver => (⟨.ok value, resolver.journal⟩, resolver)
  | .error cause resolver => (⟨.error cause, resolver.journal⟩, resolver)

end Resolve

namespace View

open Resolve

/-- The visible rows of a stored column. -/
def gather (view : View) (path : List String) (name : String) : Resolve Column :=
  match view.table.get? name with
  | none => fail (.data (.unknownColumn name))
  | some stored => do
    record (.gathered name)
    match view.mask with
    | none => pure stored
    | some mask => settle path (Outcome.ofFaulty (stored.take mask.rows))

/-- The number of rows that stored columns are gathered at, and with them of every resolved
column. -/
def resolvedCount (view : View) : Nat :=
  match view.mask with
  | some mask => mask.rows.length
  | none => view.table.rowCount

/-- A virtual column from its arguments.  It must have as many rows as the other columns. -/
def compute (view : View) (path : List String) (column : VirtualColumn) (function : ColumnFunction)
    (arguments : List Column) : Resolve Column := do
  let expected := view.resolvedCount
  record (.called column expected arguments)
  let output ← settle path
    ((function arguments).mapError (.functionFailed column.function column.name))
  if output.length = expected then pure output
  else fail (.arityMismatch column.name column.function expected output.length)

/-- A column over the visible rows, needed for the columns on the path; `room` is how many more
columns the path may take. -/
def resolveAt (view : View) (room : Nat) (path : List String) (name : String) : Resolve Column :=
  remembered name <|
    match view.virtualColumn? name with
    | none => view.gather path name
    | some column =>
      if name ∈ path then
        fail (.cyclicDefinition (path.dropWhile (· ≠ name) ++ [name]))
      else
        match room with
        | 0 => fail (.definitionTooDeep name view.maxDepth)
        | room + 1 =>
          match view.functions.get? column.function with
          | none => fail (.unknownFunction column.function)
          | some function => do
            record (.resolving path column)
            let arguments ← column.sources.mapM (view.resolveAt room (path ++ [name]))
            view.compute path column function arguments

/-- A column over the visible rows. -/
def resolve (view : View) (name : String) : Resolve Column := do
  let resolver ← get
  view.resolveAt (view.maxDepth - resolver.stuck.length) resolver.stuck name

/-- One request to a resolver. -/
def request (view : View) (name : String) (resolver : Resolver) : Run Column × Resolver :=
  (view.resolve name).run resolver

end View

end RowSieve

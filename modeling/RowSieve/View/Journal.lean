import RowSieve.View

/-!
# Journals

What a view does can be watched: every operation on a view gives its outcome together with a journal
of the events on the way.
-/

namespace RowSieve

/-- Something that happened to a view. -/
inductive Event where
  /-- A table was put behind a mask. -/
  | masked (count rows : Nat)
  /-- A view was derived by a predicate. -/
  | derived (count rows : Nat)
  /-- A virtual column was declared. -/
  | declared (column : VirtualColumn)
  /-- The visible rows of a stored column were gathered. -/
  | gathered (column : String)
  /-- The sources of a virtual column are about to be resolved, for the sake of the columns on the
  path. -/
  | resolving (path : List String) (column : VirtualColumn)
  /-- The function of a virtual column is about to be called. -/
  | called (column : VirtualColumn) (rows : Nat) (arguments : List Column)

/-- The line that reports an event. -/
def Event.message : Event → String
  | .masked count rows => s!"DEBUG filtered view: {count} of {rows} rows visible"
  | .derived count rows => s!"DEBUG derived view: {count} of {rows} rows visible"
  | .declared column =>
    s!"DEBUG declared virtual column {column.name} = {column.function}"
      ++ "(" ++ Text.quoteList column.sources ++ ")"
  | .gathered column => s!"TRACE gathering stored column {column}"
  | .resolving _ column =>
    s!"TRACE resolving sources of {column.name}: " ++ Text.quoteList column.sources
  | .called column rows _ =>
    s!"DEBUG calling function {column.function} for column {column.name} over {rows} rows"

/-- How an operation ended, and what happened until then. -/
structure Run (α : Type) where
  outcome : Outcome EvalError α
  journal : List Event

namespace Run

/-- An operation that failed before anything happened. -/
def failed {α : Type} (error : EvalError) : Run α :=
  ⟨.error (.error error), []⟩

/-- The operation followed by a function on its value. -/
def map {α β : Type} (f : α → β) (run : Run α) : Run β :=
  ⟨f <$> run.outcome, run.journal⟩

end Run

end RowSieve

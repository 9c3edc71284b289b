import RowSieve.ColumnFunction
import RowSieve.Text.Quoted
import RowSieve.Text.Search

/-!
# Registries

A registry gives functions their names.  A name is never given twice.
-/

namespace RowSieve

/-- Named functions, in the order in which they were registered. -/
structure Registry where
  entries : List (String × ColumnFunction)

namespace Registry

/-- The registry without functions. -/
def empty : Registry :=
  ⟨[]⟩

/-- The number of functions. -/
def size (registry : Registry) : Nat :=
  registry.entries.length

/-- There are no functions. -/
def isEmpty (registry : Registry) : Bool :=
  registry.entries.isEmpty

/-- The names of the functions. -/
def names (registry : Registry) : List String :=
  registry.entries.map (·.1)

/-- The function of a name. -/
def get? (registry : Registry) (name : String) : Option ColumnFunction :=
  registry.entries.lookup name

/-- There is a function of this name. -/
def contains (registry : Registry) (name : String) : Bool :=
  (registry.get? name).isSome

/-- Give a function a name that is still free. -/
def register (registry : Registry) (name : String) (function : ColumnFunction) :
    Except EvalError Registry :=
  if registry.contains name then .error (.duplicateFunction name)
  else .ok ⟨registry.entries ++ [(name, function)]⟩

/-- Register functions one after another, up to the first whose name is taken; those before it
stay. -/
def registerAll (registry : Registry) :
    List (String × ColumnFunction) → Registry × Except EvalError Unit
  | [] => (registry, .ok ())
  | (name, function) :: rest =>
    match registry.register name function with
    | .ok registry => registry.registerAll rest
    | .error error => (registry, .error error)

/-- The names of the functions in the order of their bytes, as a text. -/
def display (registry : Registry) : String :=
  let sorted := registry.names.mergeSort fun left right => (Text.compareBytes left right).isLE
  "FunctionRegistry \x7b functions: " ++ Text.quoteList sorted ++ " \x7d"

end Registry

end RowSieve

/-!
# Errors

What a table, a view or a column function can refuse, and the text that says so.  Errors about data
arise without any view; a view adds those about functions and virtual columns.
-/

namespace RowSieve

/-- What is wrong with a column, a table or a predicate. -/
inductive DataError where
  /-- There is no column of this name. -/
  | unknownColumn (name : String)
  /-- The name is already taken by a column. -/
  | duplicateColumn (name : String)
  /-- A value or column of one type stands where another is needed. -/
  | typeMismatch (context expected actual : String)
  /-- A column, validity or mask has the wrong number of rows. -/
  | lengthMismatch (context : String) (expected actual : Nat)
  deriving DecidableEq

/-- The text of a data error. -/
def DataError.message : DataError → String
  | .unknownColumn name => s!"unknown column: {name}"
  | .duplicateColumn name => s!"duplicate column: {name}"
  | .typeMismatch context expected actual =>
    s!"type error in {context}: expected {expected}, got {actual}"
  | .lengthMismatch context expected actual =>
    s!"length mismatch for {context}: expected {expected} rows, got {actual}"

/-- Why a column function refused its arguments: in its own words, or because of the data. -/
inductive Failure where
  | text (message : String)
  | data (error : DataError)
  deriving DecidableEq

/-- The text of a refusal. -/
def Failure.message : Failure → String
  | .text message => message
  | .data error => error.message

/-- What a view can refuse.  An error about data is an error of a view as it stands. -/
inductive EvalError where
  /-- An error about a column, a table or a predicate. -/
  | data (error : DataError)
  /-- There is no function of this name. -/
  | unknownFunction (name : String)
  /-- The name is already taken by a function. -/
  | duplicateFunction (name : String)
  /-- A virtual column needs itself, through the columns on the path. -/
  | cyclicDefinition (path : List String)
  /-- A function returned a column of the wrong length. -/
  | arityMismatch (column function : String) (expected actual : Nat)
  /-- Virtual columns nest deeper than the view allows. -/
  | definitionTooDeep (column : String) (limit : Nat)
  /-- A function refused its arguments. -/
  | functionFailed (function column : String) (source : Failure)
  deriving DecidableEq

/-- The text of an evaluation error. -/
def EvalError.message : EvalError → String
  | .data error => error.message
  | .unknownFunction name => s!"unknown function: {name}"
  | .duplicateFunction name => s!"duplicate function name: {name}"
  | .cyclicDefinition path => "virtual column dependency cycle: " ++ " -> ".intercalate path
  | .arityMismatch column function expected actual =>
    s!"function {function} returned {actual} values for column {column}, expected {expected}"
  | .definitionTooDeep column limit =>
    s!"virtual column {column} nests deeper than the limit of {limit}"
  | .functionFailed function column source =>
    s!"function {function} failed while computing {column}: {source.message}"

end RowSieve

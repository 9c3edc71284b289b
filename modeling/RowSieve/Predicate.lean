import RowSieve.Kind

/-!
# Predicates

A predicate is built with and, or and not from leaves; a leaf puts one column to one test.
`Predicate.columns` lists the columns that a predicate reads.
-/

namespace RowSieve

/-! ### Comparisons -/

/-- How two values are compared. -/
inductive CompareOp where
  | eq
  | ne
  | lt
  | lte
  | gt
  | gte
  deriving DecidableEq

namespace CompareOp

/-- The name of a comparison in the text of an error. -/
def name : CompareOp → String
  | .eq => "Eq"
  | .ne => "Ne"
  | .lt => "Lt"
  | .lte => "Lte"
  | .gt => "Gt"
  | .gte => "Gte"

/-- The comparison only asks whether two values are equal. -/
def isEquality : CompareOp → Bool
  | .eq | .ne => true
  | _ => false

/-- The comparison holds of two values in this order. -/
def holds : CompareOp → Ordering → Bool
  | .eq, order => order = .eq
  | .ne, order => order ≠ .eq
  | .lt, order => order = .lt
  | .lte, order => order ≠ .gt
  | .gt, order => order = .gt
  | .gte, order => order ≠ .lt

/-- The comparison holds of two values that may have no order: these only differ. -/
def holdsOf (op : CompareOp) : Option Ordering → Bool
  | some order => op.holds order
  | none => op = .ne

/-- The comparison holds of two floating-point numbers.  What is not a number equals itself, and
comes neither before nor after anything. -/
def holdsOfFloats (op : CompareOp) (left right : Binary64) : Bool :=
  if op.isEquality then left.same right = (op = .eq)
  else
    match left.compare? right with
    | some order => op.holds order
    | none => false

end CompareOp

/-- The constant in a comparison. -/
inductive Literal where
  | int (value : Int64)
  | float (value : Binary64)
  | boolean (value : Bool)
  | string (value : String)

namespace Literal

/-- The type of a literal. -/
def kind : Literal → Kind
  | .int _ => .int
  | .float _ => .float
  | .boolean _ => .boolean
  | .string _ => .string

/-- Literals of one type with equal values; what is not a number equals nothing. -/
def equals : Literal → Literal → Bool
  | .int left, .int right => left = right
  | .float left, .float right => left.equals right
  | .boolean left, .boolean right => left = right
  | .string left, .string right => left = right
  | _, _ => false

instance : BEq Literal := ⟨equals⟩

end Literal

/-! ### Predicates -/

/-- What is asked of the cells of one column. -/
inductive Test where
  /-- The value compares so with the literal. -/
  | compare (op : CompareOp) (literal : Literal)
  /-- The value is the truth value true. -/
  | isTrue
  /-- There is no value. -/
  | isNull
  /-- There is a value. -/
  | isNotNull
  deriving BEq

/-- A condition on the rows of a table. -/
inductive Predicate where
  /-- A test of a column. -/
  | leaf (column : String) (test : Test)
  | and (left right : Predicate)
  | or (left right : Predicate)
  | not (inner : Predicate)
  deriving BEq

namespace Predicate

/-- The leaves from left to right. -/
def leaves : Predicate → List (String × Test)
  | .leaf column test => [(column, test)]
  | .and left right | .or left right => left.leaves ++ right.leaves
  | .not inner => inner.leaves

/-- The columns read, after those already listed; a column is listed where it is first read. -/
def columnsAfter (listed : List String) : Predicate → List String
  | .leaf column _ => if column ∈ listed then listed else listed ++ [column]
  | .and left right | .or left right => right.columnsAfter (left.columnsAfter listed)
  | .not inner => inner.columnsAfter listed

/-- The columns that the predicate reads, each once, in the order of first use. -/
def columns (predicate : Predicate) : List String :=
  predicate.columnsAfter []

end Predicate

end RowSieve

import RowSieve.Binary64

/-!
# Kinds of columns

The four types a column can have and what its slots hold.
-/

namespace RowSieve

/-- The type of a column. -/
inductive Kind where
  | int
  | float
  | boolean
  | string
  deriving DecidableEq

namespace Kind

/-- The name of a type. -/
def name : Kind → String
  | .int => "int"
  | .float => "float"
  | .boolean => "boolean"
  | .string => "string"

/-- What a slot of a column of this type holds. -/
abbrev Slot : Kind → Type
  | .int => Int64
  | .float => Binary64
  | .boolean => Bool
  | .string => String

/-- What stands in the slot of a null. -/
def placeholder : (kind : Kind) → kind.Slot
  | .int => 0
  | .float => Binary64.zero
  | .boolean => false
  | .string => ""

end Kind

end RowSieve

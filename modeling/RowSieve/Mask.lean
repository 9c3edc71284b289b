import RowSieve.Bits
import RowSieve.Error

/-!
# Masks

A mask says for every row of a table whether it is selected.
-/

namespace RowSieve

/-- A selection of rows, one bit a row. -/
structure Mask where
  bits : Bits
  deriving DecidableEq

namespace Mask

/-- The mask of these bits. -/
def ofList (values : List Bool) : Mask :=
  ⟨.ofList values⟩

/-- Every one of so many rows. -/
def all (rows : Nat) : Mask :=
  ⟨.allSet rows⟩

/-- The number of rows, selected or not. -/
def length (mask : Mask) : Nat :=
  mask.bits.length

/-- There are no rows. -/
def isEmpty (mask : Mask) : Bool :=
  mask.bits.isEmpty

/-- The number of selected rows. -/
def count (mask : Mask) : Nat :=
  mask.bits.count

/-- The selected rows, ascending. -/
def rows (mask : Mask) : List Nat :=
  mask.bits.indices

/-- The row is selected; no row past the end is. -/
def isSelected (mask : Mask) (row : Nat) : Bool :=
  row < mask.length && mask.bits.test row

/-- Combine two masks over the same number of rows. -/
def combine (op : Bits → Bits → Except Fault Bits) (left right : Mask) : Outcome DataError Mask :=
  if left.length = right.length then
    Outcome.ofFaulty ((op left.bits right.bits).map Mask.mk)
  else
    .error (.error (.lengthMismatch "filter mask" left.length right.length))

/-- The rows selected by both masks. -/
def and : Mask → Mask → Outcome DataError Mask :=
  combine Bits.and

/-- The rows selected by either mask. -/
def or : Mask → Mask → Outcome DataError Mask :=
  combine Bits.or

/-- The rows not selected. -/
def not (mask : Mask) : Mask :=
  ⟨mask.bits.not⟩

end Mask

end RowSieve

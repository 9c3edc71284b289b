import RowSieve.Bits
import RowSieve.Error
import RowSieve.Scalar

/-!
# Columns

A column is a row of slots of one type.  Some slots may be null: then the column stores a bit for
every slot, one where there is a value, and the slot of a null holds a placeholder that is no cell
of the column.  A column without nulls stores no bits.

`Column.values` is what a column stands for; two columns are equal when they agree on type and
values.
-/

namespace RowSieve

/-- A column of slots of one type. -/
structure Column where
  kind : Kind
  slots : Array kind.Slot
  /-- Which slots hold a value; absent when all do. -/
  validity : Option Bits

namespace Column

/-! ### Reading -/

/-- The number of rows. -/
def length (column : Column) : Nat :=
  column.slots.size

/-- There are no rows. -/
def isEmpty (column : Column) : Bool :=
  column.length = 0

/-- The number of nulls. -/
def nullCount (column : Column) : Nat :=
  match column.validity with
  | some bits => bits.length - bits.count
  | none => 0

/-- The row holds a value. -/
def isValid (column : Column) (row : Nat) : Except Fault Bool :=
  match column.validity with
  | some bits => bits.get row
  | none => .ok true

/-- The slot of a row, whether or not it holds a value. -/
def slot (column : Column) (row : Nat) : Except Fault column.kind.Slot :=
  match column.slots[row]? with
  | some slot => .ok slot
  | none => .error (.slotOutOfRange column.length row)

/-- The cell at a row: null where there is no value or no row. -/
def readCell (column : Column) (row : Nat) : Except Fault Scalar :=
  match column.slots[row]? with
  | none => .ok .null
  | some slot => do
    if ← column.isValid row then return .ofSlot column.kind slot else return .null

/-- The cell at a row; a validity that is too short counts as null. -/
def cell (column : Column) (row : Nat) : Scalar :=
  match column.readCell row with
  | .ok value => value
  | .error _ => .null

/-- The cells, first row first. -/
def values (column : Column) : List Scalar :=
  (List.range column.length).map column.cell

/-- Columns of one type and length with the same values. -/
def same (left right : Column) : Bool :=
  left.kind = right.kind && left.length = right.length && left.values == right.values

instance : BEq Column := ⟨same⟩

/-! ### Columns without nulls -/

/-- A column of integers. -/
def ofInts (slots : Array Int64) : Column :=
  ⟨.int, slots, none⟩

/-- A column of floating-point numbers. -/
def ofFloats (slots : Array Binary64) : Column :=
  ⟨.float, slots, none⟩

/-- A column of truth values. -/
def ofBooleans (slots : Array Bool) : Column :=
  ⟨.boolean, slots, none⟩

/-- A column of texts. -/
def ofStrings (slots : Array String) : Column :=
  ⟨.string, slots, none⟩

/-- The slots of a column of integers. -/
def ints? : Column → Option (Array Int64)
  | ⟨.int, slots, _⟩ => some slots
  | _ => none

/-- The slots of a column of floating-point numbers. -/
def floats? : Column → Option (Array Binary64)
  | ⟨.float, slots, _⟩ => some slots
  | _ => none

/-- The slots of a column of truth values. -/
def booleans? : Column → Option (Array Bool)
  | ⟨.boolean, slots, _⟩ => some slots
  | _ => none

/-- The slots of a column of texts. -/
def strings? : Column → Option (Array String)
  | ⟨.string, slots, _⟩ => some slots
  | _ => none

/-- The same slots, each holding a value. -/
def dropValidity (column : Column) : Column :=
  { column with validity := none }

/-! ### Nulls -/

/-- A validity worth storing: one that marks a null. -/
def storedValidity (bits : Bits) : Option Bits :=
  if bits.isAllSet then none else some bits

/-- The same slots with another validity, one bit a row. -/
def withValidity (column : Column) (bits : Bits) : Except DataError Column :=
  if bits.length = column.length then
    .ok { column with validity := storedValidity bits }
  else
    .error (.lengthMismatch "column validity" column.length bits.length)

/-! ### Gathering and mapping -/

/-- The given rows in the given order.  All validity bits are looked up before the first slot. -/
def take (column : Column) (rows : List Nat) : Except Fault Column := do
  let validity ←
    match column.validity with
    | some bits => do
      let kept ← rows.mapM bits.get
      pure (storedValidity (.ofList kept))
    | none => pure none
  let slots ← rows.mapM column.slot
  return ⟨column.kind, slots.toArray, validity⟩

/-- Every slot of a column of integers through a function, nulls kept. -/
def mapInts? (f : Int64 → Int64) : Column → Option Column
  | ⟨.int, slots, validity⟩ => some ⟨.int, slots.map f, validity⟩
  | _ => none

/-- Every slot of a column of numbers through a function on floating-point numbers, nulls kept. -/
def mapFloats? (f : Binary64 → Binary64) : Column → Option Column
  | ⟨.float, slots, validity⟩ => some ⟨.float, slots.map f, validity⟩
  | ⟨.int, slots, validity⟩ => some ⟨.float, slots.map fun slot => f (.ofInt64 slot), validity⟩
  | _ => none

end Column

end RowSieve

import RowSieve.Binary64

/-!
# Hashers

A hasher takes in parts one after another and makes a number of them in the end.  Which parts a
value hands over, and in which order, is for the value to say; what becomes of them is the hasher's
own affair.
-/

namespace RowSieve

/-- Makes a number of parts that come one after another. -/
structure Hasher where
  /-- What has been taken in so far. -/
  State : Type
  start : State
  /-- Take in which of several forms a value has. -/
  tag : State → Nat → State
  int : State → Int64 → State
  /-- Take in a floating-point number, by whatever of its pattern the hasher goes by. -/
  float : State → Binary64 → State
  boolean : State → Bool → State
  string : State → String → State
  finish : State → UInt64

namespace Hasher

/-- Mixes every part into one word. -/
def mixing : Hasher where
  State := UInt64
  start := 0
  tag state form := mixHash state form.toUInt64
  int state value := mixHash state value.toUInt64
  float state value := mixHash state value.canonical.bits
  boolean state value := mixHash state (hash value)
  string state value := mixHash state (hash value)
  finish := id

end Hasher

end RowSieve

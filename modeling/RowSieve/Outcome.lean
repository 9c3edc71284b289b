/-!
# Outcomes

How an operation can end.  An *error* says what was wrong with the request and belongs to the
operation that reports it; a *fault* is a broken precondition, which ends the computation on the
spot whatever was being computed.
-/

namespace RowSieve

/-- A precondition that did not hold. -/
inductive Fault where
  /-- A bit was asked for at or past the end of a bit string. -/
  | bitOutOfRange (index length : Nat)
  /-- A slot was asked for at or past the end of a sequence. -/
  | slotOutOfRange (length index : Nat)
  /-- Two bit strings of different lengths were combined. -/
  | unequalLengths (left right : Nat)
  /-- A column function gave up without an answer. -/
  | raised (message : String)
  deriving DecidableEq

/-- What is told about a fault. -/
def Fault.message : Fault → String
  | .bitOutOfRange index length => s!"BitVec index {index} out of bounds for length {length}"
  | .slotOutOfRange length index =>
    s!"index out of bounds: the len is {length} but the index is {index}"
  | .unequalLengths left right => s!"bit strings of unequal length: {left} and {right}"
  | .raised message => message

/-- Why a computation ended without a value. -/
inductive Abort (ε : Type) where
  | error (cause : ε)
  | fault (broken : Fault)
  deriving DecidableEq

namespace Abort

/-- Errors change their type, faults stay what they are. -/
def map {ε δ : Type} (f : ε → δ) : Abort ε → Abort δ
  | .error cause => .error (f cause)
  | .fault broken => .fault broken

end Abort

/-- The result of a computation that may end in an error or in a fault. -/
abbrev Outcome (ε α : Type) := Except (Abort ε) α

namespace Outcome

/-- A computation whose only way to end early is a fault. -/
def ofFaulty {ε α : Type} : Except Fault α → Outcome ε α :=
  Except.mapError Abort.fault

/-- A computation whose only way to end early is an error. -/
def ofExcept {ε α : Type} : Except ε α → Outcome ε α :=
  Except.mapError Abort.error

/-- The same computation with its errors seen as errors of another type. -/
def mapError {ε δ α : Type} (f : ε → δ) : Outcome ε α → Outcome δ α :=
  Except.mapError (Abort.map f)

end Outcome

end RowSieve

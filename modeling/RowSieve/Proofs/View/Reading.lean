import RowSieve.Proofs.View.Resolution
import RowSieve.View.Derive

/-!
# Parked errors come to light

A predicate stops at the first column that it cannot read, so nothing is parked while it goes on,
and at most one error is parked when it has failed.  Reading through parked errors therefore ends
as asking the resolver itself does.

`Reading.Follows` compares a computation that reads visible columns with one that asks the resolver.

* `Reading.Follows.bind`: this is kept by sequences.
* `Reading.follows_evaluate`, `Reading.Follows.unpark_eq`: evaluating a predicate with errors
  parked is evaluating it with the errors of the resolver.
-/

namespace RowSieve.Reading

/-- **How a computation that reads visible columns ends** where one that asks the resolver ends so:
the error is told, or else it is parked, and nothing was parked before. -/
inductive Parked {α : Type} : EStateM.Result (Abort DataError) VisibleColumns α →
    EStateM.Result (Abort EvalError) Resolver α → Prop where
  | ok {value : α} {next : Resolver} : Parked (.ok value ⟨next, none⟩) (.ok value next)
  | told {error : DataError} {next : Resolver} :
      Parked (.error (.error error) ⟨next, none⟩) (.error (.error (.data error)) next)
  | parked {placeholder : DataError} {error : EvalError} {next : Resolver} :
      Parked (.error (.error placeholder) ⟨next, some error⟩) (.error (.error error) next)
  | fault {broken : Fault} {next : Resolver} :
      Parked (.error (.fault broken) ⟨next, none⟩) (.error (.fault broken) next)

/-- **Reading follows asking the resolver**, from wherever nothing is parked. -/
def Follows {α : Type} (reading : Reading α) (action : Resolve α) : Prop :=
  ∀ resolver, Parked (reading ⟨resolver, none⟩) (action resolver)

section Rules

variable {α β : Type}

theorem follows_pure (value : α) : Follows (pure value) (pure value) :=
  fun _ => .ok

theorem follows_settle (outcome : Outcome DataError α) :
    Follows (settle outcome) (Resolve.settle [] (outcome.mapError .data)) := by
  intro resolver
  rcases outcome with (error | broken) | value
  · exact .told
  · exact .fault
  · exact .ok

theorem follows_column (view : View) (name : String) :
    Follows (column view name) (view.resolve name) := by
  intro resolver
  rw [column]
  dsimp only
  rcases view.resolve name resolver with ⟨value, next⟩ | ⟨error | broken, next⟩
  · exact .ok
  · exact .parked
  · exact .fault

/-- Nothing is parked by the time that the second part begins. -/
theorem Follows.bind {reading : Reading α} {action : Resolve α} {more : α → Reading β}
    {next : α → Resolve β} (h : Follows reading action)
    (hn : ∀ value, Follows (more value) (next value)) :
    Follows (reading >>= more) (action >>= next) := by
  intro resolver
  have ha := h resolver
  show Parked (EStateM.bind reading more _) (EStateM.bind action next resolver)
  rw [EStateM.bind, EStateM.bind]
  generalize reading ⟨resolver, none⟩ = result, action resolver = result' at ha ⊢
  cases ha with
  | ok => exact hn _ _
  | told => exact .told
  | parked => exact .parked
  | fault => exact .fault

/-- **What is parked comes to light.** -/
theorem Follows.unpark_eq {reading : Reading α} {action : Resolve α} (h : Follows reading action) :
    reading.unpark = action := by
  funext resolver
  have ha := h resolver
  rw [unpark]
  generalize reading ⟨resolver, none⟩ = result, action resolver = result' at ha ⊢
  cases ha with
  | ok => rfl
  | told => rfl
  | parked => rfl
  | fault => rfl

end Rules

/-- **Evaluating a predicate** with errors parked follows evaluating it with the resolver's. -/
theorem follows_evaluate (view : View) (predicate : Predicate) :
    Follows (predicate.evaluate (column view) settle)
      (predicate.evaluate view.resolve fun outcome =>
        Resolve.settle [] (outcome.mapError .data)) := by
  induction predicate with
  | leaf name test =>
      refine (follows_column view name).bind ?_
      intro found
      exact follows_settle _
  | and left right ihl ihr | or left right ihl ihr =>
      refine ihl.bind ?_
      intro leftBits
      refine ihr.bind ?_
      intro rightBits
      exact follows_settle _
  | not inner ih =>
      refine ih.bind ?_
      intro bits
      exact follows_pure bits.not

end RowSieve.Reading

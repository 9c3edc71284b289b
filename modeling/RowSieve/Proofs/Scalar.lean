import RowSieve.Proofs.Binary64
import RowSieve.Scalar

/-!
# Equality of values

Two values are equal when they have one canonical form: the two zeros have one, and so has all that
is not a number.

* `Scalar.beq_iff`, `Scalar.list_beq_iff`: equality by canonical forms.
* `Scalar.eq_or_floats`: what equality does not tell apart.
-/

namespace RowSieve.Scalar

/-- One value for both zeros and one for all that is not a number. -/
def canonical : Scalar → Scalar
  | .float value => .float value.canonical
  | value => value

/-- **Equal values** have one canonical form. -/
theorem beq_iff {left right : Scalar} :
    (left == right) = true ↔ left.canonical = right.canonical := by
  show left.same right = true ↔ _
  cases left <;> cases right <;> simp [same, canonical, Binary64.same]

theorem list_beq_iff {left right : List Scalar} :
    (left == right) = true ↔ left.map canonical = right.map canonical := by
  induction left generalizing right with
  | nil => cases right <;> simp
  | cons value rest ih =>
      cases right with
      | nil => simp
      | cons other others =>
          rw [List.cons_beq_cons, Bool.and_eq_true, beq_iff, ih, List.map_cons, List.map_cons,
            List.cons.injEq]

theorem isNull_canonical (value : Scalar) : value.canonical.isNull = value.isNull := by
  cases value <;> rfl

/-- Equal values are the same but for floating-point numbers, whose exact values are. -/
theorem eq_or_floats {left right : Scalar} (h : left.canonical = right.canonical) :
    left = right ∨ ∃ x y, left = .float x ∧ right = .float y ∧ x.value? = y.value? := by
  cases left with
  | float x =>
      cases right with
      | float y =>
          refine .inr ⟨x, y, rfl, rfl, Binary64.same_iff.mp (decide_eq_true ?_)⟩
          exact Scalar.float.inj h
      | _ => cases h
  | _ =>
      left
      cases right with
      | float y => cases h
      | _ => exact h

end RowSieve.Scalar

import RowSieve.Proofs.Predicate

/-!
# Typing tests

Whether a test fits a column is a matter of the column's type alone, and so is what is wrong with
it.

* `Test.objection?`: what is wrong with a test of a column of a type.
* `Test.bits_of_objection`, `Test.exists_bits`: a test fails with this, and else gives bits.
-/

namespace RowSieve

/-- Values of these types compare: numbers with numbers, and otherwise values of one type. -/
def Kind.comparesWith : Kind → Kind → Bool
  | .int, .int | .int, .float | .float, .int | .float, .float => true
  | .boolean, .boolean | .string, .string => true
  | _, _ => false

theorem CompareOp.slotTest?_eq_none_iff {op : CompareOp} {kind : Kind} {literal : Literal} :
    op.slotTest? kind literal = none ↔ kind.comparesWith literal.kind = false := by
  cases kind <;> cases literal <;> simp [slotTest?, Kind.comparesWith, Literal.kind]

namespace Test

/-- **What is wrong** with a test of a column of this name and type. -/
def objection? (name : String) (kind : Kind) : Test → Option DataError
  | .compare op literal =>
    if kind = .boolean ∧ literal.kind = .boolean ∧ op.isEquality = false then
      some (.typeMismatch s!"ordering comparison {op.name} on column {name}"
        "int, float or string" Kind.boolean.name)
    else if kind.comparesWith literal.kind then none
    else some (.typeMismatch s!"comparison on column {name}" kind.name literal.kind.name)
  | .isTrue =>
    if kind = .boolean then none
    else some (.typeMismatch s!"predicate column {name}" Kind.boolean.name kind.name)
  | .isNull | .isNotNull => none

theorem objection?_eq_some {test : Test} {name : String} {kind : Kind} {error : DataError}
    (h : test.objection? name kind = some error) :
    ∃ context expected actual, error = .typeMismatch context expected actual := by
  cases test with
  | compare op literal =>
      rw [objection?] at h
      split at h
      · exact ⟨_, _, _, (Option.some.inj h).symm⟩
      · split at h
        · cases h
        · exact ⟨_, _, _, (Option.some.inj h).symm⟩
  | isTrue =>
      rw [objection?] at h
      split at h
      · cases h
      · exact ⟨_, _, _, (Option.some.inj h).symm⟩
  | isNull | isNotNull => cases h

section Objections

variable {test : Test} {name : String} {column : Column}

/-- **An ill-typed test** fails with what is wrong with it. -/
theorem bits_of_objection {error : DataError}
    (h : test.objection? name column.kind = some error) :
    test.bits name column = .error (.error error) := by
  cases test with
  | compare op literal =>
      rw [objection?] at h
      rw [bits, compareBits]
      split at h
      next hordering =>
        obtain ⟨hk, hl, he⟩ := hordering
        obtain rfl := Option.some.inj h
        simp [hk, hl, he]
      next hordering =>
        split at h
        · cases h
        next hcompares =>
          obtain rfl := Option.some.inj h
          have hguard : ¬ (column.kind = .boolean && literal.kind = .boolean &&
              !op.isEquality) = true := by simpa [and_assoc] using hordering
          rw [if_neg hguard, CompareOp.slotTest?_eq_none_iff.mpr (by simpa using hcompares)]
  | isTrue =>
      rw [objection?] at h
      split at h
      · cases h
      next hk =>
        obtain rfl := Option.some.inj h
        obtain ⟨kind, slots, validity⟩ := column
        cases kind with
        | boolean => exact absurd rfl hk
        | _ => rfl
  | isNull | isNotNull => cases h

/-- **A well-typed test** gives bits. -/
theorem exists_bits (hc : column.WellFormed) (h : test.objection? name column.kind = none) :
    ∃ found, test.bits name column = .ok found := by
  cases test with
  | compare op literal =>
      rw [objection?] at h
      rw [bits, compareBits]
      split at h
      · cases h
      next hordering =>
        split at h
        next hcompares =>
          have hguard : ¬ (column.kind = .boolean && literal.kind = .boolean &&
              !op.isEquality) = true := by simpa [and_assoc] using hordering
          rw [if_neg hguard]
          cases htest : op.slotTest? column.kind literal with
          | none =>
              rw [CompareOp.slotTest?_eq_none_iff, hcompares] at htest
              cases htest
          | some holds => exact exists_bits_of_slots hc holds
        · cases h
  | isTrue =>
      rw [objection?] at h
      split at h
      next hk =>
        obtain ⟨kind, slots, validity⟩ := column
        obtain rfl : kind = .boolean := hk
        exact ⟨_, (trueBits_eq hc : trueBits name _ = _)⟩
      · cases h
  | isNull | isNotNull => exact ⟨_, validBits_eq hc _⟩

end Objections

end Test

end RowSieve

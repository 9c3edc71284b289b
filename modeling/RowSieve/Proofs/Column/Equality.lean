import RowSieve.Proofs.Column.Nulls
import RowSieve.Proofs.Predicate.Agreement
import RowSieve.Proofs.Scalar

/-!
# Equal columns

Columns are equal when they agree on type and values, and values are equal when they have one
canonical form.  What stands behind a null, which zero a cell holds, or how it spells that it is not
a number, equality does not see.  Nor does anything that is done with well-formed columns: a test
holds of equal values alike, and rows are gathered from both in the same way.

* `Column.beq_iff`: equality by the canonical forms of the values; so it is an equivalence relation
  (`Column.beq_equivalence`).
* `Column.Equal`: well-formed columns that are equal; they store one validity
  (`Column.Equal.validity`).
* `Test.bits_of_equal`, `Predicate.evaluate_of_equal`, `Table.select_of_equal`: tests and predicates
  over equal columns.
-/

namespace RowSieve

namespace Column

/-! ### Equality -/

/-- **Equal columns** have one type and, cell for cell, values of one canonical form. -/
theorem beq_iff {left right : Column} :
    (left == right) = true ↔
      left.kind = right.kind ∧
        left.values.map Scalar.canonical = right.values.map Scalar.canonical := by
  show left.same right = true ↔ _
  rw [same, Bool.and_eq_true, Bool.and_eq_true, decide_eq_true_iff, decide_eq_true_iff,
    Scalar.list_beq_iff, and_assoc]
  refine and_congr_right fun _ => and_iff_right_of_imp fun h => ?_
  rw [← length_values, ← length_values, ← List.length_map Scalar.canonical, h, List.length_map]

/-- **Equality of columns** is an equivalence relation. -/
theorem beq_equivalence : Equivalence fun left right : Column => (left == right) = true := by
  refine ⟨fun column => beq_iff.mpr ⟨rfl, rfl⟩, fun hs => ?_, fun hl hr => ?_⟩
  · obtain ⟨hk, hv⟩ := beq_iff.mp hs
    exact beq_iff.mpr ⟨hk.symm, hv.symm⟩
  · obtain ⟨hk, hv⟩ := beq_iff.mp hl
    obtain ⟨hk', hv'⟩ := beq_iff.mp hr
    exact beq_iff.mpr ⟨hk.trans hk', hv.trans hv'⟩

/-- Columns of one type are equal if their values are the same. -/
theorem beq_of_values {left right : Column} (hk : left.kind = right.kind)
    (hv : left.values = right.values) : (left == right) = true :=
  beq_iff.mpr ⟨hk, by rw [hv]⟩

/-- **Equal columns**, both of them well-formed. -/
structure Equal (left right : Column) : Prop where
  wellFormed : left.WellFormed
  wellFormed_right : right.WellFormed
  beq : (left == right) = true

section Equal

variable {left right : Column}

theorem Equal.kind (h : left.Equal right) : left.kind = right.kind :=
  (beq_iff.mp h.beq).1

theorem Equal.length (h : left.Equal right) : left.length = right.length := by
  have hv := congrArg List.length (beq_iff.mp h.beq).2
  simpa using hv

/-- The cells of equal columns are equal, row by row. -/
theorem Equal.canonical_cell (h : left.Equal right) {row : Nat} (hr : row < left.length) :
    (left.cell row).canonical = (right.cell row).canonical := by
  have hv := congrArg (·[row]?) (beq_iff.mp h.beq).2
  rw [List.getElem?_map, List.getElem?_map, getElem?_values hr, getElem?_values (h.length ▸ hr)]
    at hv
  exact Option.some.inj hv

/-- Columns of one type and length are equal if their cells are. -/
theorem beq_of_cells (hk : left.kind = right.kind) (hl : left.length = right.length)
    (hc : ∀ row < left.length, (left.cell row).canonical = (right.cell row).canonical) :
    (left == right) = true := by
  refine beq_iff.mpr ⟨hk, List.ext_getElem? fun row => ?_⟩
  rw [List.getElem?_map, List.getElem?_map]
  by_cases hr : row < left.length
  · rw [getElem?_values hr, getElem?_values (hl ▸ hr), Option.map_some, Option.map_some, hc row hr]
  · rw [List.getElem?_eq_none (by simpa using hr), List.getElem?_eq_none (by simpa [← hl] using hr)]

/-- **One validity**: equal columns have their nulls in the same rows. -/
theorem Equal.validity (h : left.Equal right) : left.validity = right.validity := by
  refine h.wellFormed.validity_congr h.wellFormed_right h.length fun row hr => ?_
  have hnull := congrArg Scalar.isNull (h.canonical_cell hr)
  rw [Scalar.isNull_canonical, Scalar.isNull_canonical, isNull_cell h.wellFormed hr,
    isNull_cell h.wellFormed_right (h.length ▸ hr)] at hnull
  exact Bool.not_inj hnull

/-- **Gathering rows** of equal columns. -/
theorem Equal.taken (h : left.Equal right) {rows : List Nat}
    (hrows : ∀ row ∈ rows, row < left.length) : (left.taken rows).Equal (right.taken rows) := by
  refine ⟨wellFormed_taken left rows, wellFormed_taken right rows, ?_⟩
  refine beq_of_cells h.kind (by rw [length_taken, length_taken]) fun index hi => ?_
  rw [length_taken] at hi
  have hrow := List.getElem?_eq_getElem hi
  have hlt := hrows rows[index] (List.getElem_mem hi)
  rw [h.wellFormed.cell_taken hrow hlt, h.wellFormed_right.cell_taken hrow (h.length ▸ hlt),
    h.canonical_cell hlt]

end Equal

end Column

/-! ### Tests -/

namespace Test

theorem holds_congr_floats {x y : Binary64} (h : x.value? = y.value?) (test : Test) :
    test.Holds (.float x) ↔ test.Holds (.float y) := by
  cases test with
  | compare op literal => cases literal <;> simp [Holds, CompareOp.Holds, h]
  | isTrue | isNull | isNotNull => simp [Holds]

/-- **A test holds of equal values alike.** -/
theorem holds_congr {value other : Scalar} (h : value.canonical = other.canonical) (test : Test) :
    test.Holds value ↔ test.Holds other := by
  rcases Scalar.eq_or_floats h with rfl | ⟨x, y, rfl, rfl, hxy⟩
  · rfl
  · exact holds_congr_floats hxy test

/-- Bits that mark the rows of which the same is true are the same. -/
theorem Marks.unique {bits others : Bits} {left right : Column} {holds : Scalar → Prop}
    (hb : Marks bits left holds) (ho : Marks others right holds) (hl : left.length = right.length)
    (hc : ∀ row < left.length, holds (left.cell row) ↔ holds (right.cell row)) : bits = others := by
  obtain ⟨hwf, hbl, hbits⟩ := hb
  obtain ⟨hwf', hol, hothers⟩ := ho
  refine hwf.ext_test hwf' (by rw [hbl, hol, hl]) fun row hr => ?_
  rw [hbl] at hr
  rw [Bool.eq_iff_iff, hbits row hr, hothers row (hl ▸ hr), hc row hr]

/-- **A test of equal columns** gives the same bits, or ends in one error. -/
theorem bits_of_equal (test : Test) (name : String) {left right : Column}
    (h : left.Equal right) : test.bits name left = test.bits name right := by
  rcases (test.bits_of_kind_eq name h.wellFormed h.wellFormed_right h.kind).eq_ok_or_eq_error with
    ⟨bits, others, hb, ho⟩ | ⟨cause, hb, ho⟩
  · have hmarks := bits_eq_ok h.wellFormed hb
    have hmarks' := bits_eq_ok h.wellFormed_right ho
    rw [hb, ho, hmarks.unique hmarks' h.length fun row hr => holds_congr (h.canonical_cell hr) test]
  · rw [hb, ho]
    rfl

end Test

/-- **A predicate over equal columns** gives the same bits, or ends for one reason. -/
theorem Predicate.evaluate_of_equal {ε : Type} {lookup others : String → Outcome ε Column}
    (settle : Outcome DataError Bits → Outcome ε Bits) {predicate : Predicate}
    (h : ∀ name ∈ predicate.columns, Outcome.Related Column.Equal (lookup name) (others name)) :
    predicate.evaluate lookup settle = predicate.evaluate others settle := by
  induction predicate with
  | leaf name test =>
      have hname := h name (by simp)
      rw [evaluate, evaluate]
      generalize lookup name = found, others name = other at hname ⊢
      cases hname with
      | ok he =>
          show settle _ = settle _
          rw [test.bits_of_equal name he]
      | error cause => rfl
  | and left right ihl ihr | or left right ihl ihr =>
      simp only [mem_columns_and, mem_columns_or] at h
      rw [evaluate, evaluate, ihl fun name hn => h name (.inl hn),
        ihr fun name hn => h name (.inr hn)]
  | not inner ih => rw [evaluate, evaluate, ih h]

/-- **Tables that give equal columns** select the same rows. -/
theorem Table.select_of_equal {left right : Table}
    (h : ∀ name, Outcome.Related Column.Equal (left.column name) (right.column name))
    (predicate : Predicate) : left.select predicate = right.select predicate := by
  have hcolumn : ∀ name, Outcome.Related Column.Equal (Outcome.ofExcept (left.column name))
      (Outcome.ofExcept (right.column name)) := fun name => (h name).mapError Abort.error
  rw [select, select, Predicate.evaluate_of_equal id fun name _ => hcolumn name]

end RowSieve

import RowSieve.Proofs.Column.Values
import RowSieve.Proofs.Mask.Algebra

/-!
# Nulls

A column that can be built stores a validity only if it has nulls.  So what it tells about its nulls
without looking at any value agrees with the values.

* `Column.WellFormed.exists_clear`: a validity that is stored marks a null.
* `Column.WellFormed.validity_congr`: equally long columns with nulls in the same rows store the
  same validity.
* `Column.WellFormed.validity_eq_none_iff`, `Column.WellFormed.nullCount_eq`: whether there are
  nulls, and how many.
* `Column.Built.nulls_marked`: all this, and what is read in a row, for every column that can be
  built.
-/

namespace RowSieve.Column

section Nulls

variable {column : Column} {bits : Bits}

/-- **A validity that is stored** has a bit for every row, not all of them ones. -/
theorem WellFormed.exists_clear (h : column.WellFormed) (hv : column.validity = some bits) :
    bits.length = column.length ∧ ∃ row < bits.length, bits.get row = .ok false := by
  obtain ⟨hb, hl, ha⟩ := h bits hv
  refine ⟨hl, ?_⟩
  by_contra hset
  -- if no bit is clear, the ones are as many as the bits
  have hcount : (List.range bits.length).countP bits.test = bits.length := by
    rw [List.countP_eq_length_filter, List.filter_eq_self.mpr, List.length_range]
    intro row hr
    by_contra hclear
    refine hset ⟨row, List.mem_range.mp hr, ?_⟩
    rw [Bits.get_of_lt (List.mem_range.mp hr), Bool.eq_false_iff.mpr hclear]
  rw [Bits.isAllSet, hb.count_eq_countP, hcount, decide_eq_false_iff_not] at ha
  exact ha rfl

/-- Where every row is marked as a value, no validity is stored. -/
theorem WellFormed.validity_eq_none (h : column.WellFormed)
    (hm : ∀ row < column.length, column.marked row = true) : column.validity = none := by
  refine Option.eq_none_iff_forall_ne_some.mpr fun bits hv => ?_
  obtain ⟨hl, row, hr, hclear⟩ := h.exists_clear hv
  have hset := hm row (hl ▸ hr)
  rw [marked, hv, Option.elim_some] at hset
  rw [Bits.get_of_lt hr, hset] at hclear
  cases hclear

/-- **The rows that are marked** decide which validity is stored. -/
theorem WellFormed.validity_congr {left right : Column} (hl : left.WellFormed)
    (hr : right.WellFormed) (hlen : left.length = right.length)
    (hm : ∀ row < left.length, left.marked row = right.marked row) :
    left.validity = right.validity := by
  cases hv : left.validity with
  | none =>
      refine (hr.validity_eq_none fun row hrow => ?_).symm
      rw [← hm row (hlen ▸ hrow), marked, hv]
      rfl
  | some bits =>
      cases hv' : right.validity with
      | none =>
          have hnone := hl.validity_eq_none fun row hrow => by
            rw [hm row hrow, marked, hv']
            rfl
          exact absurd hnone (by simp [hv])
      | some others =>
          obtain ⟨hb, hbl, -⟩ := hl bits hv
          obtain ⟨ho, hol, -⟩ := hr others hv'
          rw [hb.ext_test ho (by rw [hbl, hol, hlen]) fun row hrow => ?_]
          have hrow := hm row (hbl ▸ hrow)
          rwa [marked, marked, hv, hv'] at hrow

/-- The nulls are in the rows that are marked so. -/
theorem WellFormed.countP_isNull (h : column.WellFormed) :
    column.values.countP Scalar.isNull =
      (List.range column.length).countP fun row => !column.marked row := by
  rw [values, List.countP_map]
  refine List.countP_congr fun row hr => ?_
  rw [Function.comp_apply, isNull_cell h (List.mem_range.mp hr)]

/-- **The number of nulls** is found from the validity alone. -/
theorem WellFormed.nullCount_eq (h : column.WellFormed) :
    column.nullCount = column.values.countP Scalar.isNull := by
  rw [h.countP_isNull, nullCount]
  unfold marked
  cases hv : column.validity with
  | none => simp
  | some bits =>
      obtain ⟨hb, hl, -⟩ := h bits hv
      have hsplit := (List.range bits.length).length_eq_countP_add_countP bits.test
      rw [List.length_range, ← hb.count_eq_countP] at hsplit
      show bits.length - bits.count =
        (List.range column.length).countP fun row => !bits.test row
      rw [Nat.sub_eq_of_eq_add' hsplit, ← hl]
      exact List.countP_congr fun row _ => by simp

/-- Reading a row tells what value it holds, and whether it does. -/
theorem WellFormed.readCell_of_lt (h : column.WellFormed) {row : Nat} (hr : row < column.length) :
    ∃ value, column.values[row]? = some value ∧ column.readCell row = .ok value ∧
      column.isValid row = .ok (!value.isNull) := by
  refine ⟨column.cell row, getElem?_values hr, readCell_eq h row, ?_⟩
  rw [isValid_eq h hr, isNull_cell h hr, Bool.not_not]

/-- **A validity is stored** where there is a null, and nowhere else. -/
theorem WellFormed.validity_eq_none_iff (h : column.WellFormed) :
    column.validity = none ↔ Scalar.null ∉ column.values := by
  constructor
  · intro hv hnull
    obtain ⟨row, hr⟩ := List.mem_iff_getElem?.mp hnull
    have hlt : row < column.length := by
      rw [← length_values]
      exact (List.getElem?_eq_some_iff.mp hr).1
    obtain ⟨value, hvalue, -, hvalid⟩ := h.readCell_of_lt hlt
    obtain rfl := Option.some.inj (hvalue.symm.trans hr)
    rw [isValid, hv] at hvalid
    cases hvalid
  · intro hnull
    refine Option.eq_none_iff_forall_ne_some.mpr fun bits hv => hnull ?_
    obtain ⟨hl, row, hr, hclear⟩ := h.exists_clear hv
    obtain ⟨value, hvalue, -, hvalid⟩ := h.readCell_of_lt (hl ▸ hr)
    have hisNull : value.isNull = true := by
      rw [isValid, hv] at hvalid
      simpa using (hclear.symm.trans hvalid).symm
    cases value with
    | null => exact List.mem_of_getElem? hvalue
    | _ => cases hisNull

end Nulls

/-- **Nulls are marked.**  A column that can be built stores a validity only with a bit for every
slot, one of them clear.  So it stores none just if no value is null, it tells the number of nulls
and in which rows they are, and reading never fails, not even where there is no row. -/
theorem Built.nulls_marked {column : Column} (h : column.Built) :
    (∀ bits, column.validity = some bits → bits.length = column.slots.size ∧
        ∃ row < bits.length, bits.get row = .ok false) ∧
      (column.validity = none ↔ Scalar.null ∉ column.values) ∧
      column.nullCount = column.values.countP Scalar.isNull ∧
      (∀ row < column.length, ∃ value, column.values[row]? = some value ∧
        column.readCell row = .ok value ∧ column.isValid row = .ok (!value.isNull)) ∧
      ∀ row, ∃ value, column.readCell row = .ok value :=
  ⟨fun _ => h.wellFormed.exists_clear, h.wellFormed.validity_eq_none_iff,
    h.wellFormed.nullCount_eq, fun _ => h.wellFormed.readCell_of_lt,
    fun row => ⟨_, readCell_eq h.wellFormed row⟩⟩

/-- Two numbers with a null between them. -/
def gapped : Column :=
  ⟨.int, #[1, 0, 3], some (.ofList [true, false, true])⟩

theorem built_gapped : gapped.Built :=
  .withValidity (.ofInts #[1, 0, 3]) (.ofList [true, false, true]) rfl

/-- Two rows are gathered with the null, and two without it. -/
theorem nulls_gapped :
    (gapped.taken [1, 0]).Built ∧ (gapped.taken [0, 2]).Built ∧
      (gapped.taken [1, 0]).nullCount = 1 ∧ (gapped.taken [1, 0]).values.countP Scalar.isNull = 1 ∧
      (gapped.taken [0, 2]).validity = none ∧ Scalar.null ∉ (gapped.taken [0, 2]).values := by
  have hwf := built_gapped.wellFormed
  have hgap : (gapped.taken [1, 0]).Built := built_gapped.take (take_eq hwf (by decide))
  have hfull : (gapped.taken [0, 2]).Built := built_gapped.take (take_eq hwf (by decide))
  have hcount : (gapped.taken [1, 0]).nullCount = 1 := by decide +kernel
  have hnone : (gapped.taken [0, 2]).validity = none := rfl
  exact ⟨hgap, hfull, hcount, hgap.nulls_marked.2.2.1.symm.trans hcount, hnone,
    hfull.nulls_marked.2.1.mp hnone⟩

end RowSieve.Column

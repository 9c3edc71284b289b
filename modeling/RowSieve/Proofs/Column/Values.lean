import RowSieve.Proofs.Column

/-!
# Columns stand for their values

A column built from values gives these back, as far as its type can hold them.

* `Column.values_of_ofScalars`: a column of a given type holds the values widened to that type.
* `Column.values_of_infer`: a column of the type that its values have holds just these.
-/

namespace RowSieve

/-- A value as it is held by a column of a type: integers widen to floating-point numbers. -/
def Scalar.widened : Kind → Scalar → Scalar
  | .float, .int value => .float (.ofInt64 value)
  | _, value => value

namespace Column

/-! ### Cells in a list -/

@[simp] theorem length_values (column : Column) : column.values.length = column.length := by
  rw [values, List.length_map, List.length_range]

theorem getElem?_values {column : Column} {row : Nat} (hr : row < column.length) :
    column.values[row]? = some (column.cell row) := by
  rw [values, List.getElem?_map, List.getElem?_range hr]
  rfl

/-- A column has the values that its cells are. -/
theorem values_eq {column : Column} {found : List Scalar} (hl : column.length = found.length)
    (hc : ∀ row value, found[row]? = some value → column.cell row = value) :
    column.values = found := by
  refine List.ext_getElem ((length_values column).trans hl) fun row hr hf => ?_
  have hcell : column.values[row] = column.cell row := by simp [values]
  rw [hcell]
  exact hc row _ (List.getElem?_eq_getElem hf)

/-! ### Values of a given type -/

/-- A slot taken by a value stands for it. -/
theorem ofSlot_of_slotOf? {kind : Kind} {value : Scalar} {slot : kind.Slot}
    (h : slotOf? kind value = some slot) :
    (if !value.isNull then Scalar.ofSlot kind slot else .null) = value.widened kind := by
  cases kind <;> cases value <;> simp_all [slotOf?, Scalar.ofSlot, Scalar.isNull, Scalar.widened]

theorem length_of_ofScalars {kind : Kind} {values : List Scalar} {column : Column}
    (h : ofScalars kind values = .ok column) : column.length = values.length := by
  obtain ⟨slots, hs, h⟩ := Outcome.bind_eq_ok.mp h
  obtain ⟨-, rfl⟩ := withValidity_eq_ok h
  exact (Outcome.mapM_eq_ok.mp hs).length_eq.symm

theorem cell_of_ofScalars {kind : Kind} {values : List Scalar} {column : Column}
    (h : ofScalars kind values = .ok column) {row : Nat} {value : Scalar}
    (hv : values[row]? = some value) : column.cell row = value.widened kind := by
  have hwf := wellFormed_of_ofScalars h
  obtain ⟨slots, hs, h⟩ := Outcome.bind_eq_ok.mp h
  obtain ⟨hl, rfl⟩ := withValidity_eq_ok h
  obtain ⟨hr, rfl⟩ := List.getElem?_eq_some_iff.mp hv
  have hforall := Outcome.mapM_eq_ok.mp hs
  have hr' : row < slots.length := hforall.length_eq ▸ hr
  have hslot : slotOf? kind values[row] = some slots[row] := by
    have hok := hforall.get hr hr'
    dsimp only [List.get_eq_getElem] at hok
    split at hok
    next slot hslot => rw [hslot, Except.ok.inj hok]
    next => cases hok
  have hfound : slots.toArray[row]? = some slots[row] := by simp [hr']
  rw [cell_of_some hwf hfound]
  -- the row is marked as the value is null or not
  rw [marked, elim_storedValidity (Bits.wellFormed_ofList _) (by simpa using hr),
    Bits.test_ofList (by simpa using hr), List.getElem_map]
  exact ofSlot_of_slotOf? hslot

/-- **A column of a given type** holds the values widened to it. -/
theorem values_of_ofScalars {kind : Kind} {values : List Scalar} {column : Column}
    (h : ofScalars kind values = .ok column) :
    column.values = values.map (Scalar.widened kind) := by
  refine values_eq (by rw [length_of_ofScalars h, List.length_map]) fun row value hv => ?_
  rw [List.getElem?_map, Option.map_eq_some_iff] at hv
  obtain ⟨given, hg, rfl⟩ := hv
  exact cell_of_ofScalars h hg

/-! ### The type that values have -/

/-- The type inferred is that of every value, and the one that was expected. -/
theorem inferKind_eq_ok {values : List Scalar} {expected result : Option Kind} {row : Nat}
    (h : inferKind expected row values = .ok result) :
    (∀ kind, expected = some kind → result = some kind) ∧
      ∀ value ∈ values, ∀ kind, value.kind? = some kind → result = some kind := by
  fun_induction inferKind expected row values with
  | case1 =>
      obtain rfl := Except.ok.inj h
      exact ⟨fun _ => id, by simp⟩
  | case2 expected row value rest hnull ih =>
      obtain ⟨hexpected, hrest⟩ := ih h
      exact ⟨hexpected, List.forall_mem_cons.mpr ⟨by simp [hnull], hrest⟩⟩
  | case3 row value rest actual hactual ih =>
      obtain ⟨hfirst, hrest⟩ := ih h
      refine ⟨by simp, List.forall_mem_cons.mpr ⟨?_, hrest⟩⟩
      rw [hactual]
      exact hfirst
  | case4 row value rest actual hactual ih =>
      obtain ⟨hexpected, hrest⟩ := ih h
      refine ⟨hexpected, List.forall_mem_cons.mpr ⟨?_, hrest⟩⟩
      rw [hactual]
      exact hexpected
  | case5 => cases h

theorem widened_of_kind {kind : Kind} {value : Scalar}
    (h : ∀ actual, value.kind? = some actual → kind = actual) : value.widened kind = value := by
  cases value with
  | int value =>
      obtain rfl := h .int rfl
      rfl
  | _ => cases kind <;> rfl

/-- **A column of the type that its values have** holds just these. -/
theorem values_of_infer {values : List Scalar} {column : Column}
    (h : infer values = .ok column) : column.values = values := by
  obtain ⟨kind, hk, h⟩ := Outcome.bind_eq_ok.mp h
  rw [values_of_ofScalars h]
  refine (List.map_congr_left fun value hv => ?_).trans (List.map_id values)
  refine widened_of_kind fun actual ha => ?_
  rw [(inferKind_eq_ok hk).2 value hv actual ha]
  rfl

end Column

end RowSieve

import RowSieve.Proofs.RowLocal

/-!
# The type that values have

A column of the type that its values have is found when all of them have one type; nulls have any.
Of fewer values the same type is found, unless only nulls are left.

* `Column.exists_ofScalars`: values that fit in a column of a given type make one.
* `Column.exists_infer`: values of one type make a column.
* `Column.kind_of_infer`: its type is that of the first value, and without one that of
  floating-point numbers.
* `Column.WellFormed.kind?_of_mem`: the values of any column have its type.
* `ColumnFunction.exists_elementwise`: a lifted function gives a column if its results have one
  type.
-/

namespace RowSieve

namespace Scalar

/-- **A value fits** in a column of a type: it has this type, or is an integer among floating-point
numbers.  A null fits everywhere. -/
def Fits (kind : Kind) (value : Scalar) : Prop :=
  ∀ actual, value.kind? = some actual → actual = kind ∨ kind = .float ∧ actual = .int

theorem fits_of_kind {kind : Kind} {value : Scalar}
    (h : ∀ actual, value.kind? = some actual → actual = kind) : value.Fits kind :=
  fun actual ha => .inl (h actual ha)

end Scalar

namespace Column

/-- The type of the first value; of nulls alone, that of floating-point numbers. -/
def firstKind (values : List Scalar) : Kind :=
  (values.findSome? Scalar.kind?).getD .float

theorem firstKind_of_nulls {values : List Scalar} (h : ∀ value ∈ values, value = .null) :
    firstKind values = .float := by
  have hnone : values.findSome? Scalar.kind? = none :=
    List.findSome?_eq_none_iff.mpr fun value hv => by
      rw [h value hv]
      rfl
  rw [firstKind, hnone]
  rfl

theorem kind?_ofSlot (kind : Kind) (slot : kind.Slot) :
    (Scalar.ofSlot kind slot).kind? = some kind := by
  cases kind <;> rfl

/-- A value that is no null has a type. -/
theorem exists_kind? {value : Scalar} (h : value ≠ .null) : ∃ kind, value.kind? = some kind := by
  cases value with
  | null => exact absurd rfl h
  | _ => exact ⟨_, rfl⟩

section Inference

variable {kind : Kind} {values : List Scalar}

/-- Values of one type agree with what was expected of that type. -/
theorem inferKind_eq {expected : Option Kind} {row : Nat}
    (he : ∀ known, expected = some known → known = kind)
    (hv : ∀ value ∈ values, ∀ actual, value.kind? = some actual → actual = kind) :
    inferKind expected row values = .ok (expected.or (values.findSome? Scalar.kind?)) := by
  fun_induction inferKind expected row values with
  | case1 => simp
  | case2 expected row value rest hnull ih =>
      rw [ih he fun other ho => hv other (List.mem_cons_of_mem _ ho), List.findSome?_cons, hnull]
  | case3 row value rest actual hactual ih =>
      have hfirst := hv value List.mem_cons_self actual hactual
      rw [ih (by simpa using hfirst) fun other ho => hv other (List.mem_cons_of_mem _ ho),
        List.findSome?_cons, hactual]
      rfl
  | case4 row value rest actual hactual ih =>
      rw [ih he fun other ho => hv other (List.mem_cons_of_mem _ ho)]
      rfl
  | case5 row value rest actual known hactual hne =>
      exact absurd ((he known rfl).trans (hv value List.mem_cons_self actual hactual).symm) hne

/-- Without any expectation the first value decides. -/
theorem inferKind_none
    (hv : ∀ value ∈ values, ∀ actual, value.kind? = some actual → actual = kind) :
    inferKind none 0 values = .ok (values.findSome? Scalar.kind?) :=
  inferKind_eq (fun _ hn => nomatch hn) hv

/-- A slot is found for just the values that fit. -/
theorem exists_slotOf?_iff {value : Scalar} :
    (∃ slot, slotOf? kind value = some slot) ↔ value.Fits kind := by
  cases value with
  | null => exact ⟨fun _ => nofun, fun _ => ⟨kind.placeholder, by cases kind <;> rfl⟩⟩
  | int value | float value | boolean value | string value =>
      cases kind <;> simp [slotOf?, Scalar.Fits, Scalar.kind?]

theorem kind_of_ofScalars {column : Column} (h : ofScalars kind values = .ok column) :
    column.kind = kind := by
  obtain ⟨_, -, h⟩ := Outcome.bind_eq_ok.mp h
  obtain ⟨-, rfl⟩ := withValidity_eq_ok h
  rfl

/-- With a slot for every value there is a column. -/
theorem exists_ofScalars_of_slotsOf {slots : List kind.Slot} (hs : slotsOf kind values = .ok slots) :
    ∃ column, ofScalars kind values = .ok column := by
  have hlength : (Bits.ofList (values.map fun value => !value.isNull)).length =
      Column.length ⟨kind, slots.toArray, none⟩ := by
    rw [Bits.length_ofList, List.length_map, (Outcome.mapM_eq_ok.mp hs).length_eq]
    rfl
  rw [ofScalars, hs]
  exact ⟨_, if_pos hlength⟩

/-- Values that fit make a column. -/
theorem exists_ofScalars (hv : ∀ value ∈ values, value.Fits kind) :
    ∃ column, ofScalars kind values = .ok column := by
  obtain ⟨slots, hs⟩ : ∃ slots, slotsOf kind values = .ok slots := by
    refine Outcome.exists_mapM fun value hm => ?_
    obtain ⟨slot, hslot⟩ := exists_slotOf?_iff.mpr (hv value hm)
    exact ⟨slot, by rw [hslot]⟩
  exact exists_ofScalars_of_slotsOf hs

/-- The type of a value among values of one type is that of the first. -/
theorem eq_firstKind (hv : ∀ value ∈ values, ∀ actual, value.kind? = some actual → actual = kind)
    {value : Scalar} (hm : value ∈ values) {actual : Kind} (ha : value.kind? = some actual) :
    actual = firstKind values := by
  cases hf : values.findSome? Scalar.kind? with
  | none => cases ha.symm.trans (List.findSome?_eq_none_iff.mp hf value hm)
  | some first =>
      obtain ⟨other, ho, hfirst⟩ := List.exists_of_findSome?_eq_some hf
      rw [firstKind, hf, hv value hm actual ha, ← hv other ho first hfirst]
      rfl

/-- **Values of one type** make a column. -/
theorem exists_infer
    (hv : ∀ value ∈ values, ∀ actual, value.kind? = some actual → actual = kind) :
    ∃ column, infer values = .ok column := by
  obtain ⟨column, hc⟩ := exists_ofScalars fun value hm =>
    Scalar.fits_of_kind fun actual => eq_firstKind hv hm
  rw [infer, inferKind_none hv]
  exact ⟨column, hc⟩

/-- **The type of the column** is that of the first value. -/
theorem kind_of_infer {column : Column} (h : infer values = .ok column) :
    column.kind = firstKind values := by
  obtain ⟨inferred, hk, h⟩ := Outcome.bind_eq_ok.mp h
  have hone : ∀ value ∈ values, ∀ actual, value.kind? = some actual →
      actual = inferred.getD .float := by
    intro value hm actual ha
    rw [(inferKind_eq_ok hk).2 value hm actual ha]
    rfl
  rw [inferKind_none hone] at hk
  obtain rfl := Except.ok.inj hk
  exact kind_of_ofScalars h

end Inference

/-- **The values of a column** have its type. -/
theorem WellFormed.kind?_of_mem {column : Column} (h : column.WellFormed) {value : Scalar}
    (hm : value ∈ column.values) {actual : Kind} (ha : value.kind? = some actual) :
    actual = column.kind := by
  obtain ⟨row, hr, rfl⟩ := List.mem_map.mp hm
  have hslot := Array.getElem?_eq_getElem (List.mem_range.mp hr : row < column.slots.size)
  rw [cell_of_some h hslot] at ha
  split at ha
  · rw [kind?_ofSlot] at ha
    exact (Option.some.inj ha).symm
  · cases ha

end Column

/-! ### Lifted functions -/

namespace ColumnFunction

variable {f : List Scalar → Scalar}

/-- The type of what a lifted function gives is that of the first value. -/
theorem kind_of_elementwise {arguments : List Column} {output : Column}
    (h : elementwise f arguments = .ok output) : output.kind = Column.firstKind output.values := by
  unfold elementwise at h
  split at h
  next => cases h
  next first rest =>
    rw [Outcome.ofExcept_eq_ok, Outcome.exceptMapError_eq_ok] at h
    rw [Column.kind_of_infer h, Column.values_of_infer h]

/-- **Results of one type** make a column, with a row for every row of the first argument. -/
theorem exists_elementwise {first : Column} {rest : List Column} {kind : Kind}
    (h : ∀ row < first.length, ∀ actual,
      (f (Column.rowOf (first :: rest) row)).kind? = some actual → actual = kind) :
    ∃ output, elementwise f (first :: rest) = .ok output ∧ output.length = first.length := by
  have hresults : ∀ value ∈ (List.range first.length).map fun row =>
      f (Column.rowOf (first :: rest) row),
        ∀ actual, value.kind? = some actual → actual = kind := by
    intro value hv
    obtain ⟨row, hr, rfl⟩ := List.mem_map.mp hv
    exact h row (List.mem_range.mp hr)
  obtain ⟨output, ho⟩ := Column.exists_infer hresults
  refine ⟨output, ?_, ?_⟩
  · rw [elementwise, ho]
    rfl
  · rw [← Column.length_values, Column.values_of_infer ho, List.length_map, List.length_range]

end ColumnFunction

end RowSieve

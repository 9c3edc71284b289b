import RowSieve.Proofs.Bits
import RowSieve.Proofs.Outcome
import RowSieve.TextFunction

/-!
# Columns and their cells

`Column.WellFormed` is what every operation on columns keeps: a validity, where there is one, has a
bit for every slot and marks a null.  `Column.Built` lists the operations by which columns arise, and
`Column.Built.wellFormed` says that they keep it.

* `Column.readCell_eq`: reading a cell of a well-formed column never fails.
* `Column.take_eq`: gathering rows that exist succeeds and gives `Column.taken`, whose cells are
  those of the rows (`Column.WellFormed.cell_taken`).
* `Column.WellFormed.taken_range`: gathering every row in order changes nothing, not even the slots.
-/

namespace RowSieve.Column

/-! ### The invariant -/

/-- What every operation on columns keeps. -/
def WellFormed (column : Column) : Prop :=
  ∀ bits, column.validity = some bits →
    bits.WellFormed ∧ bits.length = column.length ∧ bits.isAllSet = false

theorem wellFormed_of_validity_none {column : Column} (h : column.validity = none) :
    column.WellFormed := fun bits hb => by
  rw [h] at hb
  cases hb

theorem storedValidity_eq_some {bits stored : Bits} (h : storedValidity bits = some stored) :
    stored = bits ∧ bits.isAllSet = false := by
  rw [storedValidity] at h
  split at h
  · cases h
  next hb => exact ⟨(Option.some.inj h).symm, by simpa using hb⟩

theorem wellFormed_of_stored {column : Column} {bits : Bits} (hb : bits.WellFormed)
    (hl : bits.length = column.length) (h : column.validity = storedValidity bits) :
    column.WellFormed := fun stored hs => by
  obtain ⟨rfl, ha⟩ := storedValidity_eq_some (h.symm.trans hs)
  exact ⟨hb, hl, ha⟩

theorem withValidity_eq_ok {column result : Column} {bits : Bits}
    (h : column.withValidity bits = .ok result) :
    bits.length = column.length ∧ result = { column with validity := storedValidity bits } := by
  rw [withValidity] at h
  split at h
  next hl => exact ⟨hl, (Except.ok.inj h).symm⟩
  · cases h

theorem wellFormed_withValidity {column result : Column} {bits : Bits} (hb : bits.WellFormed)
    (h : column.withValidity bits = .ok result) : result.WellFormed := by
  obtain ⟨hl, rfl⟩ := withValidity_eq_ok h
  exact wellFormed_of_stored hb hl rfl

/-! ### Cells -/

/-- The row is not marked as a null. -/
def marked (column : Column) (row : Nat) : Bool :=
  column.validity.elim true (·.test row)

/-- A validity of ones alone is not stored, and without one every row is marked. -/
theorem elim_storedValidity {bits : Bits} (hb : bits.WellFormed) {row : Nat}
    (hr : row < bits.length) : (storedValidity bits).elim true (·.test row) = bits.test row := by
  rw [storedValidity]
  split
  next ha =>
    have hc := hb.count
    rw [Bits.isAllSet, decide_eq_true_eq] at ha
    rw [ha, ← Bits.length_toList, eq_comm, List.count_eq_length] at hc
    rw [← Bits.getElem_toList _ (by simpa using hr)]
    exact hc _ (List.getElem_mem _)
  next => rfl

theorem isValid_eq {column : Column} (h : column.WellFormed) {row : Nat}
    (hr : row < column.length) : column.isValid row = .ok (column.marked row) := by
  unfold isValid marked
  cases hv : column.validity with
  | none => rfl
  | some bits =>
      have hl := (h bits hv).2.1
      simp [Bits.get, hl, hr]

theorem readCell_of_none {column : Column} {row : Nat} (h : column.slots[row]? = none) :
    column.readCell row = .ok .null := by
  simp only [readCell, h]

theorem readCell_of_some {column : Column} (h : column.WellFormed) {row : Nat}
    {slot : column.kind.Slot} (hs : column.slots[row]? = some slot) :
    column.readCell row = .ok (if column.marked row then .ofSlot column.kind slot else .null) := by
  have hr : row < column.length := (Array.getElem?_eq_some_iff.mp hs).1
  simp only [readCell, hs, isValid_eq h hr]
  cases column.marked row <;> rfl

/-- **Reading a cell** of a well-formed column never fails. -/
theorem readCell_eq {column : Column} (h : column.WellFormed) (row : Nat) :
    column.readCell row = .ok (column.cell row) := by
  have hc : ∀ value, column.readCell row = .ok value → column.readCell row = .ok (column.cell row) :=
    fun value hv => by rw [cell, hv]
  cases hs : column.slots[row]? with
  | none => exact hc _ (readCell_of_none hs)
  | some slot => exact hc _ (readCell_of_some h hs)

theorem cell_of_some {column : Column} (h : column.WellFormed) {row : Nat}
    {slot : column.kind.Slot} (hs : column.slots[row]? = some slot) :
    column.cell row = if column.marked row then .ofSlot column.kind slot else .null := by
  rw [cell, readCell_of_some h hs]

theorem isNull_ofSlot (kind : Kind) (slot : kind.Slot) : (Scalar.ofSlot kind slot).isNull = false := by
  cases kind <;> rfl

/-- A cell is null exactly where the row is marked so. -/
theorem isNull_cell {column : Column} (h : column.WellFormed) {row : Nat}
    (hr : row < column.length) : (column.cell row).isNull = !column.marked row := by
  rw [cell_of_some h (Array.getElem?_eq_getElem hr)]
  cases column.marked row
  · rfl
  · rw [if_pos rfl, isNull_ofSlot]
    rfl

/-! ### Gathering -/

/-- The given rows in the given order; rows that do not exist hold placeholders. -/
def taken (column : Column) (rows : List Nat) : Column where
  kind := column.kind
  slots := (rows.map fun row => column.slots[row]?.getD column.kind.placeholder).toArray
  validity := column.validity.bind fun bits => storedValidity (.ofList (rows.map bits.test))

@[simp] theorem length_taken (column : Column) (rows : List Nat) :
    (column.taken rows).length = rows.length := by
  simp [taken, length]

/-- **Gathering rows that exist** succeeds. -/
theorem take_eq {column : Column} (h : column.WellFormed) {rows : List Nat}
    (hrows : ∀ row ∈ rows, row < column.length) : column.take rows = .ok (column.taken rows) := by
  have hslots : rows.mapM column.slot =
      .ok (rows.map fun row => column.slots[row]?.getD column.kind.placeholder) :=
    Outcome.mapM_eq_map fun row hr => by
      have hs := Array.getElem?_eq_getElem (show row < column.slots.size from hrows row hr)
      simp only [slot, hs, Option.getD_some]
  rw [take, hslots, taken]
  cases hv : column.validity with
  | none => rfl
  | some bits =>
      have hbits : rows.mapM bits.get = .ok (rows.map bits.test) :=
        Outcome.mapM_eq_map fun row hr => by
          rw [Bits.get_of_lt ((h bits hv).2.1 ▸ hrows row hr)]
      simp only [hbits]
      rfl

theorem wellFormed_taken (column : Column) (rows : List Nat) : (column.taken rows).WellFormed := by
  cases hv : column.validity with
  | none => exact wellFormed_of_validity_none (by simp [taken, hv])
  | some bits =>
      exact wellFormed_of_stored (Bits.wellFormed_ofList (rows.map bits.test)) (by simp)
        (by simp [taken, hv])

/-- What gathering gives is well-formed, whatever was gathered. -/
theorem wellFormed_of_take {column result : Column} {rows : List Nat}
    (h : column.take rows = .ok result) : result.WellFormed := by
  have hlen : ∀ {β : Type} {f : Nat → Except Fault β} {ys : List β}, rows.mapM f = .ok ys →
      ys.length = rows.length := fun hf => (Outcome.mapM_eq_ok.mp hf).length_eq.symm
  rw [take] at h
  split at h
  next bits hv =>
    obtain ⟨kept, hkept, h⟩ := Outcome.bind_eq_ok.mp h
    obtain ⟨validity, hvalidity, h⟩ := Outcome.bind_eq_ok.mp h
    obtain ⟨slots, hslots, h⟩ := Outcome.bind_eq_ok.mp h
    obtain rfl := Except.ok.inj hvalidity
    obtain rfl := Except.ok.inj h
    refine wellFormed_of_stored (Bits.wellFormed_ofList kept) ?_ rfl
    rw [Bits.length_ofList, hlen hkept, length, List.size_toArray, hlen hslots]
  next =>
    obtain ⟨validity, hvalidity, h⟩ := Outcome.bind_eq_ok.mp h
    obtain ⟨slots, hslots, h⟩ := Outcome.bind_eq_ok.mp h
    obtain rfl := Except.ok.inj hvalidity
    obtain rfl := Except.ok.inj h
    exact wellFormed_of_validity_none rfl

theorem marked_taken {column : Column} (rows : List Nat) {index row : Nat}
    (h : rows[index]? = some row) : (column.taken rows).marked index = column.marked row := by
  obtain ⟨hi, hrow⟩ := List.getElem?_eq_some_iff.mp h
  unfold marked taken
  cases column.validity with
  | none => rfl
  | some bits =>
      show (storedValidity (.ofList (rows.map bits.test))).elim true (·.test index) = bits.test row
      rw [elim_storedValidity (Bits.wellFormed_ofList _) (by simpa using hi),
        Bits.test_ofList (by simpa using hi), List.getElem_map, hrow]

/-- The slot of a gathered row. -/
theorem slots_taken {column : Column} {rows : List Nat} {index row : Nat}
    (h : rows[index]? = some row) :
    (column.taken rows).slots[index]? = some (column.slots[row]?.getD column.kind.placeholder) := by
  have hmap : ((rows.map fun row => column.slots[row]?.getD column.kind.placeholder).toArray)[index]?
      = some (column.slots[row]?.getD column.kind.placeholder) := by
    simp [h]
  exact hmap

/-- **The cells of gathered rows** are the cells of those rows. -/
theorem WellFormed.cell_taken {column : Column} (h : column.WellFormed) {rows : List Nat}
    {index row : Nat} (hi : rows[index]? = some row) (hr : row < column.length) :
    (column.taken rows).cell index = column.cell row := by
  have hs : column.slots[row]? = some column.slots[row] := Array.getElem?_eq_getElem hr
  have hslot : (column.taken rows).slots[index]? = some column.slots[row] :=
    (slots_taken hi).trans (by rw [hs, Option.getD_some])
  rw [cell_of_some (wellFormed_taken column rows) hslot, cell_of_some h hs, marked_taken rows hi]
  rfl

/-- **Gathering every row in order** changes nothing. -/
theorem WellFormed.taken_range {column : Column} (h : column.WellFormed) :
    column.taken (List.range column.length) = column := by
  have hslots : ((List.range column.length).map fun row =>
      column.slots[row]?.getD column.kind.placeholder).toArray = column.slots :=
    Array.ext (by simp [length]) fun index _ hi => by
      have hs := Array.getElem?_eq_getElem hi
      simp [hs]
  have hvalid : (column.validity.bind fun bits =>
      storedValidity (.ofList ((List.range column.length).map bits.test))) = column.validity := by
    cases hv : column.validity with
    | none => rfl
    | some bits =>
        obtain ⟨hwf, hl, ha⟩ := h bits hv
        have hbits : Bits.ofList ((List.range column.length).map bits.test) = bits := by
          rw [← hl]
          exact hwf.ofList_toList
        rw [Option.bind_some, hbits, storedValidity, ha]
        rfl
  cases column
  simp only [taken] at hslots hvalid ⊢
  rw [hslots, hvalid]

/-! ### Columns built by the operations -/

/-- The columns that the operations build. -/
inductive Built : Column → Prop where
  | ofInts (slots : Array Int64) : Built (ofInts slots)
  | ofFloats (slots : Array Binary64) : Built (ofFloats slots)
  | ofBooleans (slots : Array Bool) : Built (ofBooleans slots)
  | ofStrings (slots : Array String) : Built (ofStrings slots)
  | ofScalars {kind : Kind} {values : List Scalar} {column : Column}
      (h : ofScalars kind values = .ok column) : Built column
  | infer {values : List Scalar} {column : Column} (h : infer values = .ok column) : Built column
  | withValidity {column result : Column} {bits : Bits} (hc : Built column) (hb : bits.Built)
      (h : column.withValidity bits = .ok result) : Built result
  | take {column result : Column} {rows : List Nat} (hc : Built column)
      (h : column.take rows = .ok result) : Built result
  | mapInts {column result : Column} {f : Int64 → Int64} (hc : Built column)
      (h : column.mapInts? f = some result) : Built result
  | mapFloats {column result : Column} {f : Binary64 → Binary64} (hc : Built column)
      (h : column.mapFloats? f = some result) : Built result
  | textFunction {function : TextFunction} {arguments : List Column} {result : Column}
      (ha : ∀ argument ∈ arguments, Built argument)
      (h : function.call arguments = .ok result) : Built result
  | elementwise {f : List Scalar → Scalar} {arguments : List Column} {result : Column}
      (ha : ∀ argument ∈ arguments, Built argument)
      (h : ColumnFunction.elementwise f arguments = .ok result) : Built result

theorem wellFormed_of_ofScalars {kind : Kind} {values : List Scalar} {column : Column}
    (h : Column.ofScalars kind values = .ok column) : column.WellFormed := by
  obtain ⟨_, -, h⟩ := Outcome.bind_eq_ok.mp h
  exact wellFormed_withValidity (Bits.wellFormed_ofList _) h

theorem wellFormed_of_infer {values : List Scalar} {column : Column}
    (h : Column.infer values = .ok column) : column.WellFormed := by
  obtain ⟨_, -, h⟩ := Outcome.bind_eq_ok.mp h
  exact wellFormed_of_ofScalars h

/-- A column with the validity of another one of the same length. -/
theorem WellFormed.of_validity {column result : Column} (h : column.WellFormed)
    (hv : result.validity = column.validity) (hl : result.length = column.length) :
    result.WellFormed := fun bits hb => by
  rw [hl]
  exact h bits (hv ▸ hb)

theorem wellFormed_of_mapInts {column result : Column} {f : Int64 → Int64} (hc : column.WellFormed)
    (h : column.mapInts? f = some result) : result.WellFormed := by
  unfold mapInts? at h
  split at h
  · obtain rfl := Option.some.inj h
    exact hc.of_validity rfl (by simp [length])
  · cases h

theorem wellFormed_of_mapFloats {column result : Column} {f : Binary64 → Binary64}
    (hc : column.WellFormed) (h : column.mapFloats? f = some result) : result.WellFormed := by
  unfold mapFloats? at h
  split at h
  · obtain rfl := Option.some.inj h
    exact hc.of_validity rfl (by simp [length])
  · obtain rfl := Option.some.inj h
    exact hc.of_validity rfl (by simp [length])
  · cases h

theorem wellFormed_of_textFunction {function : TextFunction} {arguments : List Column}
    {result : Column} (ha : ∀ argument ∈ arguments, argument.WellFormed)
    (h : function.call arguments = .ok result) : result.WellFormed := by
  unfold TextFunction.call at h
  split at h
  next input =>
    split at h
    · cases h
    next texts _ =>
      split at h
      next validity hv =>
        rw [Outcome.ofExcept_eq_ok, Outcome.exceptMapError_eq_ok] at h
        exact wellFormed_withValidity (ha input (List.mem_singleton_self _) validity hv).1 h
      next =>
        obtain rfl := Except.ok.inj h
        exact wellFormed_of_validity_none rfl
  · cases h

theorem wellFormed_of_elementwise {f : List Scalar → Scalar} {arguments : List Column}
    {result : Column} (h : ColumnFunction.elementwise f arguments = .ok result) :
    result.WellFormed := by
  unfold ColumnFunction.elementwise at h
  split at h
  · cases h
  · rw [Outcome.ofExcept_eq_ok, Outcome.exceptMapError_eq_ok] at h
    exact wellFormed_of_infer h

/-- **Every column that the operations build is well-formed.** -/
theorem Built.wellFormed {column : Column} (h : Built column) : column.WellFormed := by
  induction h with
  | ofInts | ofFloats | ofBooleans | ofStrings => exact wellFormed_of_validity_none rfl
  | ofScalars h => exact wellFormed_of_ofScalars h
  | infer h => exact wellFormed_of_infer h
  | withValidity _ hb h => exact wellFormed_withValidity hb.wellFormed h
  | take _ h => exact wellFormed_of_take h
  | mapInts _ h ih => exact wellFormed_of_mapInts ih h
  | mapFloats _ h ih => exact wellFormed_of_mapFloats ih h
  | textFunction _ h ih => exact wellFormed_of_textFunction ih h
  | elementwise _ h => exact wellFormed_of_elementwise h

theorem built_of_validity_none : ∀ {column : Column}, column.validity = none → Built column
  | ⟨.int, slots, _⟩, rfl => .ofInts slots
  | ⟨.float, slots, _⟩, rfl => .ofFloats slots
  | ⟨.boolean, slots, _⟩, rfl => .ofBooleans slots
  | ⟨.string, slots, _⟩, rfl => .ofStrings slots

/-- The invariant says exactly that a column can be built. -/
theorem built_iff {column : Column} : Built column ↔ column.WellFormed := by
  refine ⟨Built.wellFormed, fun h => ?_⟩
  cases hv : column.validity with
  | none => exact built_of_validity_none hv
  | some bits =>
      obtain ⟨hwf, hl, ha⟩ := h bits hv
      have hdense : Built column.dropValidity := built_of_validity_none rfl
      refine .withValidity hdense (Bits.built_iff.mpr hwf) ?_
      rw [withValidity, if_pos (show bits.length = column.dropValidity.length from hl),
        storedValidity, ha]
      cases column
      simp only at hv
      subst hv
      rfl

end RowSieve.Column

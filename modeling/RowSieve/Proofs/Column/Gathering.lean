import RowSieve.Proofs.Column.Nulls

/-!
# Gathering rows of gathered rows

Rows are gathered in any order, and as often as they are asked for.  Gathering fails at the first row
that is not there, and only there: a column that stores a validity looks up the bits first, but it
has one for every slot.  What is gathered from gathered rows might have been gathered at once, the
validity included: it is built anew each time, and left out as soon as it marks no null.

* `Column.WellFormed.take_beyond`, `Column.WellFormed.exists_take_error_iff`: where gathering fails.
* `Column.taken_taken`: gathering twice is gathering once.
* `Column.Built.gathering`: all this for the columns that can be built.
-/

namespace RowSieve.Column

section Gathering

variable {column : Column} {rows : List Nat}

/-! ### Rows that are not there -/

/-- What is met at a row past the end: the bit is missed first, where there are bits. -/
def beyond (column : Column) (row : Nat) : Fault :=
  if column.validity.isSome then .bitOutOfRange row column.length
  else .slotOutOfRange column.length row

theorem exists_slot {row : Nat} (hr : row < column.length) :
    ∃ slot, column.slot row = .ok slot := by
  have hs := Array.getElem?_eq_getElem (show row < column.slots.size from hr)
  refine ⟨column.slots[row], ?_⟩
  simp only [slot, hs]
  rfl

theorem slot_of_le {row : Nat} (hr : column.length ≤ row) :
    column.slot row = .error (.slotOutOfRange column.length row) := by
  rw [slot, Array.getElem?_eq_none hr]

/-- **Gathering fails** at the first row that is not there. -/
theorem WellFormed.take_beyond (h : column.WellFormed) {row : Nat}
    (hf : rows.find? (fun row => decide (column.length ≤ row)) = some row) :
    column.take rows = .error (column.beyond row) := by
  obtain ⟨hrow, before, after, rfl, hbefore⟩ := List.find?_eq_some_iff_append.mp hf
  rw [decide_eq_true_iff] at hrow
  have hlt : ∀ earlier ∈ before, earlier < column.length := by simpa using hbefore
  rw [take, beyond]
  cases hv : column.validity with
  | none =>
      have hslots : (before ++ row :: after).mapM column.slot =
          .error (.slotOutOfRange column.length row) :=
        Outcome.mapM_eq_error_iff.mpr ⟨before, row, after, rfl,
          fun earlier he => exists_slot (hlt earlier he), slot_of_le hrow⟩
      rw [hslots]
      rfl
  | some bits =>
      have hl := (h bits hv).2.1
      have hbits : (before ++ row :: after).mapM bits.get =
          .error (.bitOutOfRange row column.length) := by
        refine Outcome.mapM_eq_error_iff.mpr ⟨before, row, after, rfl, fun earlier he => ?_, ?_⟩
        · exact ⟨_, Bits.get_of_lt (hl ▸ hlt earlier he)⟩
        · rw [Bits.get, if_neg (by omega), hl]
      dsimp only
      rw [hbits]
      rfl

/-- Gathering fails exactly if a row is not there. -/
theorem WellFormed.exists_take_error_iff (h : column.WellFormed) :
    (∃ broken, column.take rows = .error broken) ↔ ∃ row ∈ rows, column.length ≤ row := by
  constructor
  · rintro ⟨broken, hb⟩
    by_contra hall
    push Not at hall
    rw [take_eq h hall] at hb
    cases hb
  · rintro ⟨row, hm, hr⟩
    cases hf : rows.find? fun row => decide (column.length ≤ row) with
    | none => exact absurd (decide_eq_true hr) (List.find?_eq_none.mp hf row hm)
    | some first => exact ⟨_, h.take_beyond hf⟩

/-- What is gathered is `taken`, and the rows were all there. -/
theorem WellFormed.take_eq_ok (h : column.WellFormed) {gathered : Column}
    (ht : column.take rows = .ok gathered) :
    gathered = column.taken rows ∧ ∀ row ∈ rows, row < column.length := by
  have hrows : ∀ row ∈ rows, row < column.length := by
    intro row hm
    by_contra hr
    obtain ⟨broken, hb⟩ := h.exists_take_error_iff.mpr ⟨row, hm, not_lt.mp hr⟩
    cases ht.symm.trans hb
  exact ⟨Except.ok.inj (ht.symm.trans (take_eq h hrows)), hrows⟩

/-! ### Gathering twice -/

/-- The rows at the given places of a list of rows. -/
def picked (rows picks : List Nat) (hp : ∀ place ∈ picks, place < rows.length) : List Nat :=
  picks.pmap (fun place hplace => rows[place]) hp

/-- The row that is picked at a place. -/
theorem getElem?_picked {picks : List Nat} (hp : ∀ place ∈ picks, place < rows.length)
    {index place : Nat} (hi : picks[index]? = some place) :
    ∃ row, rows[place]? = some row ∧ (picked rows picks hp)[index]? = some row := by
  obtain ⟨hlt, rfl⟩ := List.getElem?_eq_some_iff.mp hi
  refine ⟨_, List.getElem?_eq_getElem (hp _ (List.getElem_mem hlt)), ?_⟩
  refine List.getElem?_eq_some_iff.mpr ⟨by rwa [picked, List.length_pmap], ?_⟩
  simp only [picked, List.getElem_pmap]

/-- What is looked up of the rows that are picked was looked up of all. -/
theorem map_picked {α : Type} {picks : List Nat} (hp : ∀ place ∈ picks, place < rows.length)
    (f : Nat → α) (absent : α) :
    (picked rows picks hp).map f =
      picks.map fun place => (rows.map f).toArray[place]?.getD absent := by
  rw [picked, List.map_pmap, ← List.pmap_eq_map hp]
  refine List.pmap_congr_left picks fun place _ hplace _ => ?_
  rw [List.getElem?_toArray, List.getElem?_map, List.getElem?_eq_getElem hplace]
  rfl

/-- **Gathering from gathered rows** is gathering at once. -/
theorem taken_taken {picks : List Nat} (hp : ∀ place ∈ picks, place < rows.length) :
    (column.taken rows).taken picks = column.taken (picked rows picks hp) := by
  have hslots : ((column.taken rows).taken picks).slots =
      (column.taken (picked rows picks hp)).slots := by
    have hmap := map_picked hp (fun row => column.slots[row]?.getD column.kind.placeholder)
      column.kind.placeholder
    exact congrArg List.toArray hmap.symm
  have hvalidity : ((column.taken rows).taken picks).validity =
      (column.taken (picked rows picks hp)).validity := by
    refine (wellFormed_taken _ picks).validity_congr (wellFormed_taken _ _) ?_ fun index hi => ?_
    · rw [length_taken, length_taken, picked, List.length_pmap]
    · rw [length_taken] at hi
      have hplace := List.getElem?_eq_getElem hi
      obtain ⟨row, hrow, hpicked⟩ := getElem?_picked hp hplace
      rw [marked_taken _ hplace, marked_taken _ hrow, marked_taken _ hpicked]
  exact congrArg₂ (Column.mk column.kind) hslots hvalidity

end Gathering

/-- **Gathering.**  Gathering rows of a column that can be built fails exactly if one of them is not
there, at the first such row.  What is gathered has the type of the column, and in each of its rows
what is read in the row that was asked for.  Gathering from it is gathering from the column, and
gathering every row in order gives the column back; the slots behind nulls and the validity are the
same too. -/
theorem Built.gathering {column : Column} (h : column.Built) (rows : List Nat) :
    ((∃ broken, column.take rows = .error broken) ↔ ∃ row ∈ rows, column.length ≤ row) ∧
      (∀ row, rows.find? (fun row => decide (column.length ≤ row)) = some row →
        column.take rows = .error (column.beyond row)) ∧
      (∀ gathered, column.take rows = .ok gathered →
        gathered.kind = column.kind ∧ gathered.length = rows.length ∧
          (∀ index row, rows[index]? = some row → ∃ value,
            gathered.readCell index = .ok value ∧ column.readCell row = .ok value) ∧
          ∀ picks (hp : ∀ place ∈ picks, place < rows.length), ∃ again,
            gathered.take picks = .ok again ∧ column.take (picked rows picks hp) = .ok again) ∧
      column.take (List.range column.length) = .ok column := by
  have hwf := h.wellFormed
  refine ⟨hwf.exists_take_error_iff, fun row => hwf.take_beyond, fun gathered ht => ?_, ?_⟩
  · obtain ⟨rfl, hrows⟩ := hwf.take_eq_ok ht
    refine ⟨rfl, length_taken column rows, fun index row hi => ?_, fun picks hp => ?_⟩
    · have hcell := hwf.cell_taken hi (hrows row (List.mem_of_getElem? hi))
      exact ⟨column.cell row, by rw [readCell_eq (wellFormed_taken column rows), hcell],
        readCell_eq hwf row⟩
    · refine ⟨(column.taken rows).taken picks, take_eq (wellFormed_taken column rows) ?_, ?_⟩
      · simpa using hp
      · rw [taken_taken hp]
        refine take_eq hwf fun row hm => ?_
        obtain ⟨place, hplace, rfl⟩ := List.mem_pmap.mp hm
        exact hrows _ (List.getElem_mem _)
  · rw [take_eq hwf (by simp), hwf.taken_range]

/-- From a column with a null, gathered with it twice and then without it. -/
theorem gathering_gapped :
    gapped.Built ∧ (∀ place ∈ [2, 2], place < [1, 1, 2].length) ∧
      gapped.take [1, 1, 2] = .ok (gapped.taken [1, 1, 2]) ∧
      (∃ again, (gapped.taken [1, 1, 2]).take [2, 2] = .ok again ∧
        gapped.take [2, 2] = .ok again) ∧
      gapped.take [2, 3, 4] = .error (.bitOutOfRange 3 3) := by
  have hp : ∀ place ∈ [2, 2], place < [1, 1, 2].length := by decide
  have ht : gapped.take [1, 1, 2] = .ok (gapped.taken [1, 1, 2]) :=
    take_eq built_gapped.wellFormed (by decide)
  obtain ⟨-, -, hgathered, -⟩ := built_gapped.gathering [1, 1, 2]
  obtain ⟨-, hbeyond, -, -⟩ := built_gapped.gathering [2, 3, 4]
  exact ⟨built_gapped, hp, ht, (hgathered _ ht).2.2.2 [2, 2] hp, hbeyond 3 rfl⟩

end RowSieve.Column

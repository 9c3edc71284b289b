import RowSieve.Proofs.Mask
import RowSieve.Proofs.Predicate.Agreement
import RowSieve.Proofs.Predicate.Schema
import RowSieve.Proofs.View.Selection

/-!
# Narrowing by stored columns

A predicate over stored columns can be put to the whole table, or to the visible rows gathered from
it and carried back.  The two come to the same.

* `View.Invariant.endAlike_stored`: both succeed, or both fail with one error.
* `View.Invariant.filter_stored_iff`: the view narrowed shows the visible rows whose cells in the
  table satisfy the predicate.
* `View.Reachable.filter_stored`: hence narrowing is intersecting masks, and predicates narrow one
  after another as they do together, in either order.
-/

namespace RowSieve

/-! ### Selecting rows of a table -/

namespace Table

/-- Every column that the predicate reads is stored. -/
def Stores (table : Table) (predicate : Predicate) : Prop :=
  ∀ name ∈ predicate.columns, name ∈ table.names

instance (table : Table) (predicate : Predicate) : Decidable (table.Stores predicate) :=
  inferInstanceAs (Decidable (∀ name ∈ predicate.columns, name ∈ table.names))

theorem WellFormed.select_picks {table : Table} (ht : table.WellFormed) {predicate : Predicate}
    {selected : Mask} (h : table.select predicate = .ok selected) :
    selected.Picks table.rowCount fun row =>
      row < table.rowCount ∧ predicate.Holds (table.cells row) := by
  obtain ⟨bits, hbits, rfl⟩ := Outcome.map_eq_ok.mp h
  obtain ⟨hwf, hl, hrows⟩ := ht.evaluate_eq_ok hbits
  refine ⟨hwf, hl, fun row => ?_⟩
  rw [Mask.rows, hwf.mem_indices, hl]
  exact and_congr_right fun hr => hrows row hr

/-- A conjunction selects where both its parts do. -/
theorem WellFormed.exists_select_and {table : Table} (ht : table.WellFormed)
    {left right : Predicate} :
    (∃ selected, table.select (.and left right) = .ok selected) ↔
      (∃ selected, table.select left = .ok selected) ∧
        ∃ selected, table.select right = .ok selected := by
  simp only [ht.exists_select_iff, Predicate.leaves, List.forall_mem_append]

end Table

namespace View

/-! ### Stored columns of a view -/

section Stored

variable {view : View}

theorem Invariant.not_virtual_of_stored (h : view.Invariant) {name : String}
    (hn : name ∈ view.table.names) : view.virtualColumn? name = none := by
  rw [h.virtualColumn?_eq_none_iff]
  exact fun hv => (List.nodup_append.mp h.names).2.2 _ hn _ hv rfl

/-- A stored column means its cells at the visible rows. -/
theorem Invariant.exists_meaning_of_stored (h : view.Invariant) {name : String}
    (hn : name ∈ view.table.names) :
    ∃ stored, view.table.get? name = some stored ∧
      view.meaning name = .ok (stored.taken view.rows) := by
  cases hg : view.table.get? name with
  | none => exact absurd hn (Table.get?_eq_none_iff.mp hg)
  | some stored =>
      refine ⟨stored, rfl, ?_⟩
      rw [h.meaning_of_not_virtual (h.not_virtual_of_stored hn), h.gathered_eq hg]

theorem Invariant.cellsOf_stored (h : view.Invariant) {name : String}
    (hn : name ∈ view.table.names) {place row : Nat} (hp : view.rows[place]? = some row) :
    Predicate.cellsOf view.meaning place name = view.table.cells row name := by
  obtain ⟨stored, hg, hm⟩ := h.exists_meaning_of_stored hn
  obtain ⟨hwf, hl⟩ := h.table.wellFormed_of_get? hg
  have hr : row < stored.length := hl ▸ h.lt_of_mem_rows (List.mem_of_getElem? hp)
  rw [Predicate.cellsOf, hm, Table.cells, hg]
  exact hwf.cell_taken hp hr

theorem Invariant.filter_of_stored (h : view.Invariant) {predicate : Predicate}
    (hp : view.table.Stores predicate) :
    (view.filter predicate).outcome =
      (fun mask => { view with mask := some mask }) <$> view.narrowed predicate :=
  filter_of_agrees (fun name hn => h.contains_iff.mpr (List.mem_append_left _ (hp name hn)))
    fun name hn => h.agrees_resolve_of_not_virtual (h.not_virtual_of_stored (hp name hn))

/-- **Selecting from the table and narrowing the view** both succeed, or fail with one error. -/
theorem Invariant.endAlike_stored (h : view.Invariant) {predicate : Predicate}
    (hp : view.table.Stores predicate) :
    Outcome.EndAlike .data (view.table.select predicate) (view.filter predicate).outcome := by
  have hbits : Outcome.EndAlike .data
      (predicate.evaluate (fun name => Outcome.ofExcept (view.table.column name)) id)
      (view.selected predicate) := by
    refine Predicate.evaluate_of_kind_eq (fun _ _ => h.table.wellFormed_of_column)
      (fun _ _ => h.wellFormed_of_meaning) fun name hn => ?_
    obtain ⟨stored, hg, hm⟩ := h.exists_meaning_of_stored (hp name hn)
    exact ⟨stored, _, Outcome.ofExcept_eq_ok.mpr (Table.column_eq_ok.mpr hg), hm, rfl⟩
  rw [h.filter_of_stored hp]
  rcases hbits.eq_ok_or_eq_error with ⟨bits, found, hb, hs⟩ | ⟨cause, hb, hs⟩
  · obtain ⟨mask, hm, -⟩ := h.narrowed_of_selected hs
    exact .of_eq_ok (Outcome.map_eq_ok.mpr ⟨bits, hb, rfl⟩)
      (Outcome.map_eq_ok.mpr ⟨mask, hm, rfl⟩)
  · rw [Table.select, hb, narrowed, hs]
    exact .error cause

/-! ### The rows shown -/

theorem Invariant.narrowsTo_of_stored (h : view.Invariant) {predicate : Predicate}
    (hp : view.table.Stores predicate) {result : View}
    (hf : (view.filter predicate).outcome = .ok result) :
    view.NarrowsTo result fun row => row ∈ view.rows ∧ predicate.Holds (view.table.cells row) := by
  refine (h.narrowsTo_of_filter hf).congr fun row => ?_
  have hcells : ∀ {place}, view.rows[place]? = some row →
      (predicate.Holds (Predicate.cellsOf view.meaning place) ↔
        predicate.Holds (view.table.cells row)) := fun hplace =>
    Predicate.holds_congr fun name hn => h.cellsOf_stored (hp name hn) hplace
  constructor
  · rintro ⟨place, hplace, hholds⟩
    exact ⟨List.mem_of_getElem? hplace, (hcells hplace).mp hholds⟩
  · rintro ⟨hr, hholds⟩
    obtain ⟨place, hplace⟩ := List.mem_iff_getElem?.mp hr
    exact ⟨place, hplace, (hcells hplace).mpr hholds⟩

/-- **A predicate over stored columns** narrows where it selects from the table, to the visible rows
that satisfy it there. -/
theorem Invariant.filter_stored_iff (h : view.Invariant) {predicate : Predicate}
    (hp : view.table.Stores predicate) {result : View} :
    (view.filter predicate).outcome = .ok result ↔
      (∃ selected, view.table.select predicate = .ok selected) ∧
        view.NarrowsTo result fun row =>
          row ∈ view.rows ∧ predicate.Holds (view.table.cells row) := by
  constructor
  · intro hf
    exact ⟨(h.endAlike_stored hp).exists_ok_iff.mpr ⟨result, hf⟩, h.narrowsTo_of_stored hp hf⟩
  · rintro ⟨hs, hn⟩
    obtain ⟨other, ho⟩ := (h.endAlike_stored hp).exists_ok_iff.mp hs
    rw [ho, hn.unique (h.narrowsTo_of_stored hp ho)]

end Stored

/-! ### One predicate after another -/

theorem Invariant.filterTwice_stored_iff {view : View} (h : view.Invariant)
    {first second : Predicate} (hf : view.table.Stores first) (hs : view.table.Stores second)
    {result : View} :
    view.filterTwice first second = .ok result ↔
      ((∃ selected, view.table.select first = .ok selected) ∧
        ∃ selected, view.table.select second = .ok selected) ∧
        view.NarrowsTo result fun row => row ∈ view.rows ∧
          first.Holds (view.table.cells row) ∧ second.Holds (view.table.cells row) := by
  rw [filterTwice, Outcome.bind_eq_ok]
  -- what the second predicate narrows is the view with the mask that the first one left
  have hsecond : ∀ {narrowed}, (view.filter first).outcome = .ok narrowed → ∀ result,
      ((narrowed.filter second).outcome = .ok result ↔
        (∃ selected, view.table.select second = .ok selected) ∧
          view.NarrowsTo result fun row => row ∈ view.rows ∧
            first.Holds (view.table.cells row) ∧ second.Holds (view.table.cells row)) := by
    intro narrowed hnarrowed result
    have hi := h.filter hnarrowed
    obtain ⟨-, mask, rfl, hm⟩ := (h.filter_stored_iff hf).mp hnarrowed
    rw [hi.filter_stored_iff hs]
    refine and_congr_right fun _ => narrowsTo_congr fun row => ?_
    show row ∈ mask.rows ∧ _ ↔ _
    rw [hm.mem_rows, and_assoc]
  constructor
  · rintro ⟨narrowed, hnarrowed, hresult⟩
    obtain ⟨hselect, hshows⟩ := (hsecond hnarrowed result).mp hresult
    exact ⟨⟨((h.filter_stored_iff hf).mp hnarrowed).1, hselect⟩, hshows⟩
  · rintro ⟨⟨hselect, hselect'⟩, hshows⟩
    obtain ⟨narrowed, hnarrowed⟩ := (h.endAlike_stored hf).exists_ok_iff.mp hselect
    exact ⟨narrowed, hnarrowed, (hsecond hnarrowed result).mpr ⟨hselect', hshows⟩⟩

/-- The visible rows of a selection. -/
def restrict (view : View) (selected : Mask) : Outcome DataError Mask :=
  match view.mask with
  | none => .ok selected
  | some visible => visible.and selected

theorem Invariant.restrict_picks {view : View} (h : view.Invariant) {selected : Mask}
    {chosen : Nat → Prop}
    (hs : selected.Picks view.table.rowCount fun row => row < view.table.rowCount ∧ chosen row) :
    ∃ mask, view.restrict selected = .ok mask ∧
      mask.Picks view.table.rowCount fun row => row ∈ view.rows ∧ chosen row := by
  rw [restrict]
  cases hm : view.mask with
  | none =>
      refine ⟨selected, rfl, hs.congr fun row => ?_⟩
      rw [rows, hm, List.mem_range]
  | some visible =>
      obtain ⟨hwf, hl⟩ := h.mask visible hm
      have hrows : visible.rows = view.rows := by rw [rows, hm]
      have hv : visible.Picks view.table.rowCount (· ∈ view.rows) :=
        ⟨hwf, hl, fun row => by rw [hrows]⟩
      obtain ⟨mask, hand, hpicks⟩ := hv.and hs
      refine ⟨mask, hand, hpicks.congr fun row => and_congr_right fun hr => ?_⟩
      exact and_iff_right (h.lt_of_mem_rows hr)

/-- **Narrowing by stored columns is intersecting masks.**  A predicate narrows the view if it selects
rows of the whole table, to the visible ones of these, and otherwise fails with the same error; and
two predicates narrow it one after the other, in either order, exactly as their conjunction does. -/
theorem Reachable.filter_stored {view : View} (h : view.Reachable) :
    (∀ predicate, view.table.Stores predicate →
      (∃ selected mask, view.table.select predicate = .ok selected ∧
          (view.filter predicate).outcome = .ok { view with mask := some mask } ∧
          view.restrict selected = .ok mask) ∨
        ∃ error, view.table.select predicate = .error (.error error) ∧
          (view.filter predicate).outcome = .error (.error (.data error))) ∧
      ∀ first second, view.table.Stores first → view.table.Stores second → ∀ result,
        (view.filterTwice first second = .ok result ↔
          (view.filter (.and first second)).outcome = .ok result) ∧
        (view.filterTwice first second = .ok result ↔
          view.filterTwice second first = .ok result) := by
  have hi := h.invariant
  refine ⟨fun predicate hp => ?_, fun first second hf hs result => ⟨?_, ?_⟩⟩
  · refine (hi.endAlike_stored hp).eq_ok_or_eq_error.imp_left ?_
    rintro ⟨selected, narrowed, hselect, hnarrowed⟩
    obtain ⟨mask, rfl, hm⟩ := hi.narrowsTo_of_stored hp hnarrowed
    obtain ⟨meet, hmeet, hpicks⟩ := hi.restrict_picks (hi.table.select_picks hselect)
    obtain rfl := hm.unique hpicks
    exact ⟨selected, mask, hselect, hnarrowed, hmeet⟩
  · have hand : view.table.Stores (.and first second) := fun name hn =>
      (Predicate.mem_columns_and.mp hn).elim (hf name) (hs name)
    rw [hi.filterTwice_stored_iff hf hs, hi.filter_stored_iff hand, hi.table.exists_select_and]
    rfl
  · rw [hi.filterTwice_stored_iff hf hs, hi.filterTwice_stored_iff hs hf]
    exact and_congr and_comm (narrowsTo_congr fun row => and_congr_right fun _ => and_comm)

/-- The text is not before b.  This holds of the hidden text, too. -/
def late : Predicate :=
  .leaf "text" (.compare .gte (.string "b"))

/-- There is a text. -/
def present : Predicate :=
  .leaf "text" .isNotNull

/-- The hidden text is selected from the table and not shown, whichever way the view is narrowed. -/
theorem filter_late :
    capitals.Reachable ∧ capitals.table.select late = .ok (.ofList [false, true, true]) ∧
      (capitals.filter late).outcome =
        .ok { capitals with mask := some (.ofList [false, false, true]) } ∧
      capitals.filterTwice late present =
        .ok { capitals with mask := some (.ofList [false, false, true]) } := by
  have hlate : capitals.table.Stores late := by decide
  have hpresent : capitals.table.Stores present := by decide
  have hselect : capitals.table.select late = .ok (.ofList [false, true, true]) := by
    decide +kernel
  -- both the predicate and the conjunction select the last two texts, of which one is visible
  have hnarrow : ∀ predicate, capitals.table.Stores predicate →
      capitals.table.select predicate = .ok (.ofList [false, true, true]) →
      (capitals.filter predicate).outcome =
        .ok { capitals with mask := some (.ofList [false, false, true]) } := by
    intro predicate hp hs
    have hmeet : capitals.restrict (.ofList [false, true, true]) =
        .ok (.ofList [false, false, true]) := by decide +kernel
    rcases reachable_capitals.filter_stored.1 predicate hp with
      ⟨selected, mask, hselected, hf, hmask⟩ | ⟨error, he, -⟩
    · cases hselected.symm.trans hs
      cases hmask.symm.trans hmeet
      exact hf
    · cases he.symm.trans hs
  refine ⟨reachable_capitals, hselect, hnarrow late hlate hselect, ?_⟩
  refine ((reachable_capitals.filter_stored.2 late present hlate hpresent _).1).mpr ?_
  exact hnarrow (.and late present) (by decide) (by decide +kernel)

end View

end RowSieve

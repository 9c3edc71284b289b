import RowSieve.Proofs.RowLocal
import RowSieve.Proofs.View.Selection

/-!
# Views whose functions look at one row at a time

Narrowing such a view changes no cell: a row has the same cell in every column before and after.
What may change is the type of a virtual column, which is found from the rows that are left.

* `View.Invariant.cell_eq_of_row`: the cells of a row do not depend on the mask.
* `View.Reachable.filter_rowLocal`: hence the values of a column after narrowing are those before, at
  the places of the rows left, and predicates narrow one after another as they do together.
-/

namespace RowSieve.View

/-- Every function of the view looks at one row at a time. -/
def RowLocal (view : View) : Prop :=
  ∀ name function, view.functions.get? name = some function → function.RowLocal

/-- The places of the visible rows that another view shows. -/
def placesShown (view other : View) : List Nat :=
  view.placesWhere fun place => ∃ row ∈ other.rows, view.rows[place]? = some row

/-! ### One row behind two masks -/

section Cells

variable {view : View} {mask : Option Mask}

/-- A column has a cell for every visible row. -/
theorem Invariant.lt_length_of_row (h : view.Invariant) {name : String} {column : Column}
    (hc : view.meaning name = .ok column) {place row : Nat} (hp : view.rows[place]? = some row) :
    place < column.length := by
  rw [(h.wellFormed_of_meaning hc).2, h.visibleCount_eq]
  exact (List.getElem?_eq_some_iff.mp hp).1

/-- **The cells of a row do not depend on the mask.** -/
theorem Invariant.cell_eq_of_row (h : view.Invariant) (hm : Invariant { view with mask })
    (hlocal : view.RowLocal) {row place place' : Nat} (hp : view.rows[place]? = some row)
    (hp' : (rows { view with mask })[place']? = some row) (name : String) :
    ∀ column column', view.meaning name = .ok column →
      meaning { view with mask } name = .ok column' → column.cell place = column'.cell place' := by
  induction name using h.induction with
  | step name ih =>
      intro column column' hc hc'
      have hplace := h.lt_length_of_row hc hp
      have hplace' := hm.lt_length_of_row hc' hp'
      cases hv : view.virtualColumn? name with
      | none =>
          rw [h.meaning_of_not_virtual hv] at hc
          rw [hm.meaning_of_not_virtual hv] at hc'
          obtain ⟨stored, hg, rfl⟩ := h.gathered_eq_ok hc
          obtain ⟨stored', hg', rfl⟩ := hm.gathered_eq_ok hc'
          obtain rfl : stored = stored' := Option.some.inj (hg.symm.trans hg')
          obtain ⟨hwf, hl⟩ := h.table.wellFormed_of_get? hg
          have hr : row < stored.length := hl ▸ h.lt_of_mem_rows (List.mem_of_getElem? hp)
          rw [hwf.cell_taken hp hr, hwf.cell_taken hp' hr]
      | some declared =>
          rw [h.meaning_of_virtual hv] at hc
          rw [hm.meaning_of_virtual hv] at hc'
          obtain ⟨function, arguments, hf, ha, ho, -⟩ := combined_eq_ok.mp hc
          obtain ⟨function', arguments', hf', ha', ho', -⟩ := combined_eq_ok.mp hc'
          obtain rfl : function = function' := Option.some.inj (hf.symm.trans hf')
          -- the arguments show the row alike, and the function looks at nothing else
          have hrow : Column.rowOf arguments place = Column.rowOf arguments' place' :=
            Outcome.map_eq_of_mapM ha ha' fun source hs => ih source ⟨declared, hv, hs⟩
          obtain ⟨f, honRow⟩ := (hlocal _ function hf).exists_onRow
          rw [honRow arguments column ho (h.wellFormed_of_arguments ha) place hplace,
            honRow arguments' column' ho' (hm.wellFormed_of_arguments ha') place' hplace', hrow]

end Cells

/-! ### Columns before and after -/

section Columns

variable {view narrowed : View} {predicate : Predicate}

theorem Invariant.map_some_rows_filter (h : view.Invariant)
    (hf : (view.filter predicate).outcome = .ok narrowed) :
    narrowed.rows.map some = (view.placesShown narrowed).map (view.rows[·]?) := by
  rw [h.rows_filter hf, map_some_filter, placesShown, placesWhere, h.visibleCount_eq]
  refine congrArg _ (List.filter_congr fun place hp => ?_)
  have hplace := List.getElem?_eq_getElem (List.mem_range.mp hp)
  rw [hplace]
  simp

theorem Invariant.cell_of_filter (h : view.Invariant) (hlocal : view.RowLocal)
    (hf : (view.filter predicate).outcome = .ok narrowed) {row place place' : Nat}
    (hp : view.rows[place]? = some row) (hp' : narrowed.rows[place']? = some row) {name : String}
    {column column' : Column} (hc : view.meaning name = .ok column)
    (hc' : narrowed.meaning name = .ok column') : column'.cell place' = column.cell place := by
  have hn := h.filter hf
  obtain ⟨mask, rfl, -⟩ := h.narrowsTo_of_filter hf
  exact (h.cell_eq_of_row hn hlocal hp hp' name column column' hc hc').symm

/-- **The values of a column after narrowing** are those before at the places of the rows left. -/
theorem Invariant.values_of_filter (h : view.Invariant) (hlocal : view.RowLocal)
    (hf : (view.filter predicate).outcome = .ok narrowed) {name : String} {column column' : Column}
    (hc : view.meaning name = .ok column) (hc' : narrowed.meaning name = .ok column') :
    column'.values = membersAt column.values (view.placesShown narrowed) := by
  have hrows := h.map_some_rows_filter hf
  have hshown : column'.length = narrowed.rows.length := by
    rw [((h.filter hf).wellFormed_of_meaning hc').2, (h.filter hf).visibleCount_eq]
  have hplaces : narrowed.rows.length = (view.placesShown narrowed).length := by
    rw [← List.length_map, hrows, List.length_map]
  refine eq_membersAt (List.ext_getElem (by simp [hshown, hplaces]) fun place' hl hr => ?_)
  rw [List.length_map] at hl hr
  -- the row at this place, and the place where it was
  have hp' := List.getElem?_eq_getElem (hplaces ▸ hr)
  have hp : view.rows[(view.placesShown narrowed)[place']]? = some narrowed.rows[place'] := by
    have hat := congrArg (·[place']?) hrows
    simpa [hp', hr] using hat.symm
  rw [List.getElem_map, List.getElem_map, Column.getElem?_values (h.lt_length_of_row hc hp),
    ← h.cell_of_filter hlocal hf hp hp' hc hc', ← Column.getElem?_values (hshown ▸ hplaces ▸ hr),
    List.getElem?_eq_getElem hl]

/-- After narrowing, a predicate is put to the cells that it would have been put to before. -/
theorem Invariant.holds_of_filter (h : view.Invariant) (hlocal : view.RowLocal)
    (hf : (view.filter predicate).outcome = .ok narrowed) {second : Predicate}
    (hs : ∀ name ∈ second.columns, ∃ column, view.meaning name = .ok column)
    (hs' : ∀ name ∈ second.columns, ∃ column, narrowed.meaning name = .ok column)
    {row place place' : Nat} (hp : view.rows[place]? = some row)
    (hp' : narrowed.rows[place']? = some row) :
    second.Holds (Predicate.cellsOf narrowed.meaning place') ↔
      second.Holds (Predicate.cellsOf view.meaning place) := by
  refine Predicate.holds_congr fun name hname => ?_
  obtain ⟨column, hc⟩ := hs name hname
  obtain ⟨column', hc'⟩ := hs' name hname
  rw [Predicate.cellsOf, Predicate.cellsOf, hc, hc']
  exact h.cell_of_filter hlocal hf hp hp' hc hc'

/-- What a predicate reads means something, if the view was narrowed by it. -/
theorem Invariant.exists_meaning_of_filter (h : view.Invariant)
    (hf : (view.filter predicate).outcome = .ok narrowed) {name : String}
    (hn : name ∈ predicate.columns) : ∃ column, view.meaning name = .ok column := by
  obtain ⟨-, bits, next, wide, hs, -, -⟩ := h.filter_eq_ok_iff.mp hf
  exact Predicate.exists_of_evaluate (h.selected_of_search hs) hn

/-- **One predicate after another** narrows to the rows at whose places both hold before. -/
theorem Invariant.narrowsTo_of_filterTwice (h : view.Invariant) (hlocal : view.RowLocal)
    {first second : Predicate} {twice : View} (ht : view.filterTwice first second = .ok twice)
    (hs : ∀ name ∈ second.columns, ∃ column, view.meaning name = .ok column) :
    view.NarrowsTo twice fun row => ∃ place, view.rows[place]? = some row ∧
      (Predicate.and first second).Holds (Predicate.cellsOf view.meaning place) := by
  obtain ⟨narrowed, hf, ht⟩ := Outcome.bind_eq_ok.mp ht
  have hn := h.filter hf
  have hrows := h.narrowsTo_of_filter hf
  refine hrows.trans ((hn.narrowsTo_of_filter ht).congr fun row => ?_)
  have hs' : ∀ name ∈ second.columns, ∃ column, narrowed.meaning name = .ok column :=
    fun name hname => hn.exists_meaning_of_filter ht hname
  constructor
  · rintro ⟨place', hp', hholds⟩
    obtain ⟨place, hp, hfirst⟩ := hrows.mem_rows.mp (List.mem_of_getElem? hp')
    exact ⟨place, hp, hfirst, (h.holds_of_filter hlocal hf hs hs' hp hp').mp hholds⟩
  · rintro ⟨place, hp, hfirst, hsecond⟩
    obtain ⟨place', hp'⟩ := List.mem_iff_getElem?.mp (hrows.mem_rows.mpr ⟨place, hp, hfirst⟩)
    exact ⟨place', hp', (h.holds_of_filter hlocal hf hs hs' hp hp').mpr hsecond⟩

end Columns

/-- **Columns that are found row by row do not notice narrowing.**  If every function of the view looks
at one row at a time, the values of a column after narrowing are those before, at the places of the
rows left; and if the view can be narrowed by two predicates one after the other, and by their
conjunction, this leaves the same rows. -/
theorem Reachable.filter_rowLocal {view : View} (h : view.Reachable) (hlocal : view.RowLocal) :
    (∀ predicate narrowed, (view.filter predicate).outcome = .ok narrowed →
      ∀ name column column', (view.evaluate name).outcome = .ok column →
        (narrowed.evaluate name).outcome = .ok column' →
          column'.values = membersAt column.values (view.placesShown narrowed)) ∧
      ∀ first second twice both, view.filterTwice first second = .ok twice →
        (view.filter (.and first second)).outcome = .ok both → twice.mask = both.mask := by
  have hi := h.invariant
  refine ⟨fun predicate narrowed hf name column column' hc hc' => ?_,
    fun first second twice both ht hb => ?_⟩
  · exact hi.values_of_filter hlocal hf (hi.meaning_of_evaluate hc)
      ((hi.filter hf).meaning_of_evaluate hc')
  · have hs : ∀ name ∈ second.columns, ∃ column, view.meaning name = .ok column :=
      fun name hn => hi.exists_meaning_of_filter hb (Predicate.mem_columns_and.mpr (.inr hn))
    rw [(hi.narrowsTo_of_filterTwice hlocal ht hs).unique (hi.narrowsTo_of_filter hb)]

/-! ### A view of scores -/

/-- A score above three. -/
def high : List Scalar → Scalar
  | [.int score] => if 3 < score then .int score else .null
  | _ => .null

/-- Three scores, with a function that leaves out the low ones. -/
def graded : View where
  table := ⟨[("score", .ofInts #[1, 5, 2])]⟩
  mask := none
  functions := ⟨[("high", .elementwise high)]⟩
  virtuals := []
  positions := ∅
  maxDepth := defaultMaxDepth

/-- The scores and the high ones among them. -/
def scores : View :=
  graded.insertVirtual ⟨"best", "high", ["score"]⟩

theorem contains_graded (name : String) : graded.contains name = (name == "score") :=
  contains_of_names rfl rfl name

theorem reachable_scores : scores.Reachable := by
  have ht : Table.Built graded.table := .addColumn .empty (.ofInts _) rfl
  have hg : graded.Reachable := (Reachable.ofTable ht).after
    (show (Operation.register "high" (.elementwise high)).Sound from
      ColumnFunction.sound_elementwise high)
  refine hg.insertVirtual ?_ rfl ?_
  · simp [contains_graded]
  · simp [contains_graded]

theorem rowLocal_scores : scores.RowLocal := by
  intro name function hf
  obtain ⟨-, rfl⟩ := Prod.mk.inj (List.mem_singleton.mp (Registry.mem_of_get? hf))
  exact .elementwise high fun _ _ => id

/-- The score is low. -/
def low : Predicate :=
  .leaf "score" (.compare .lt (.int 3))

/-- The score is not among the high ones. -/
def ordinary : Predicate :=
  .leaf "best" .isNull

/-- The view narrowed to the low scores. -/
def lowScores : View :=
  { scores with mask := some (.ofList [true, false, true]) }

/-- Among the low scores there is no high one, so that the type of the column changes; its values are
those of the rows left. -/
theorem filter_scores :
    scores.Reachable ∧ scores.RowLocal ∧ (scores.filter low).outcome = .ok lowScores ∧
      ∃ column column', (scores.evaluate "best").outcome = .ok column ∧ column.kind = .int ∧
        (lowScores.evaluate "best").outcome = .ok column' ∧ column'.kind = .float ∧
        column'.values = membersAt column.values [0, 2] ∧
        ∃ twice both, scores.filterTwice low ordinary = .ok twice ∧
          (scores.filter (.and low ordinary)).outcome = .ok both ∧ twice.mask = both.mask := by
  have hi := reachable_scores.invariant
  have hcontains : ∀ name, scores.contains name = (name == "score" || "best" == name) :=
    fun name => by rw [scores, contains_insertVirtual, contains_graded]
  have hlow : (scores.filter low).outcome = .ok lowScores := by
    rw [hi.filter_of_room (by decide) (by simp [low, hcontains]),
      show scores.narrowed low = .ok (.ofList [true, false, true]) by decide +kernel]
    rfl
  have hboth : (scores.filter (.and low ordinary)).outcome = .ok lowScores := by
    rw [hi.filter_of_room (by decide) (by simp [low, ordinary, hcontains]),
      show scores.narrowed (.and low ordinary) = .ok (.ofList [true, false, true]) by decide +kernel]
    rfl
  have hn := hi.filter hlow
  have hordinary : (lowScores.filter ordinary).outcome = .ok lowScores := by
    have hcontains' : lowScores.contains "best" = true := hcontains "best"
    rw [hn.filter_of_room (by decide) (by simp [ordinary, hcontains']),
      show lowScores.narrowed ordinary = .ok (.ofList [true, false, true]) by decide +kernel]
    rfl
  have htwice : scores.filterTwice low ordinary = .ok lowScores :=
    Outcome.bind_eq_ok.mpr ⟨_, hlow, hordinary⟩
  obtain ⟨column, hc, hkind⟩ := Outcome.eq_ok_of_map_toOption
    (show (scores.meaning "best").toOption.map (·.kind) = some .int by decide +kernel)
  obtain ⟨column', hc', hkind'⟩ := Outcome.eq_ok_of_map_toOption
    (show (lowScores.meaning "best").toOption.map (·.kind) = some .float by decide +kernel)
  rw [← hi.evaluate_of_room (by decide)] at hc
  rw [← hn.evaluate_of_room (by decide)] at hc'
  have hlocal := reachable_scores.filter_rowLocal rowLocal_scores
  have hvalues := hlocal.1 low lowScores hlow "best" column column' hc hc'
  rw [show scores.placesShown lowScores = [0, 2] by decide +kernel] at hvalues
  exact ⟨reachable_scores, rowLocal_scores, hlow, column, column', hc, hkind, hc', hkind', hvalues,
    _, _, htwice, hboth, hlocal.2 low ordinary _ _ htwice hboth⟩

end RowSieve.View

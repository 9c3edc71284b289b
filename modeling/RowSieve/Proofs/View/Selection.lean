import RowSieve.Proofs.Mask
import RowSieve.Proofs.View.Requests

/-!
# What a narrowed view shows

A predicate is put to the visible rows by their places, and the view narrowed by it shows the rows at
the places where it holds.

* `View.Invariant.filter_eq_ok_iff`: narrowing succeeds when the columns read are known, bits are
  found, and these are widened to the rows of the table.
* `View.Invariant.rows_of_widen`, `View.Invariant.indices_of_selected`: the rows shown are the members
  of the visible ones at the places of the ones, and there the predicate holds.
* `View.Invariant.narrowsTo_of_filter`: so the mask selects the rows at whose places it holds.
* `View.Reachable.filter_selects`: hence a narrowed view shows exactly the visible rows that satisfy
  the predicate, and its negation shows the others.
-/

namespace RowSieve

/-! ### Places in a list -/

/-- The members of a list at the given places, in the order of these. -/
def membersAt {α : Type} (members : List α) (places : List Nat) : List α :=
  places.filterMap (members[·]?)

section Places

variable {α : Type} {members : List α} {places : List Nat}

theorem mem_membersAt {a : α} :
    a ∈ membersAt members places ↔ ∃ place ∈ places, members[place]? = some a :=
  List.mem_filterMap

/-- A list whose members are found at the places. -/
theorem eq_membersAt {found : List α} (h : found.map some = places.map (members[·]?)) :
    found = membersAt members places := by
  have hfound : (found.map some).filterMap id = found := by simp
  have hplaces : (places.map (members[·]?)).filterMap id = membersAt members places := by
    rw [List.filterMap_map]
    rfl
  rw [← hfound, h, hplaces]

/-- The members that satisfy a condition, found at their places. -/
theorem map_some_filter (members : List α) (keep : α → Bool) :
    (members.filter keep).map some =
      ((List.range members.length).filter fun place => members[place]?.any keep).map
        (members[·]?) := by
  have hplaces : (List.range members.length).map (members[·]?) = members.map some :=
    List.ext_getElem (by simp) fun place hp _ => by simp_all
  have hkept : (members.filter keep).map some = (members.map some).filter (·.any keep) := by
    rw [List.filter_map]
    rfl
  rw [hkept, ← hplaces, List.filter_map]
  rfl

end Places

namespace View

/-- The places of the visible rows that satisfy a condition, ascending. -/
def placesWhere (view : View) (holds : Nat → Prop) [DecidablePred holds] : List Nat :=
  (List.range view.visibleCount).filter fun place => holds place

/-- The view narrowed by one predicate and then by another. -/
def filterTwice (view : View) (first second : Predicate) : Outcome EvalError View := do
  let narrowed ← (view.filter first).outcome
  (narrowed.filter second).outcome

/-! ### Narrowing step by step -/

section Steps

variable {view narrowed : View} {predicate : Predicate} {bits wide : Bits} {next : Resolver}

theorem Invariant.selected_of_search (h : view.Invariant)
    (hs : view.search predicate .fresh = .ok bits next) : view.selected predicate = .ok bits := by
  have ha := h.agrees_search predicate .fresh view.memoSound_fresh rfl
  rw [hs] at ha
  cases ha with
  | ok _ _ hm => exact hm

theorem filter_of_contains (hc : ∀ name ∈ predicate.columns, view.contains name = true) :
    view.filter predicate =
      ((view.narrow predicate).run .fresh).1.map fun mask => { view with mask := some mask } := by
  have hfind : predicate.columns.find? (fun name => !view.contains name) = none :=
    List.find?_eq_none.mpr fun name hn => by simp [hc name hn]
  rw [View.filter, hfind]

/-- **Narrowing succeeds** when the columns read are known and bits are found. -/
theorem Invariant.filter_eq_ok_iff (h : view.Invariant) :
    (view.filter predicate).outcome = .ok narrowed ↔
      (∀ name ∈ predicate.columns, view.contains name = true) ∧
        ∃ bits next wide, view.search predicate .fresh = .ok bits next ∧
          view.widen bits = .ok wide ∧ narrowed = { view with mask := some ⟨wide⟩ } := by
  constructor
  · intro hf
    obtain ⟨hc, mask, hm, rfl⟩ := filter_eq_ok hf
    refine ⟨hc, ?_⟩
    cases hs : view.search predicate .fresh with
    | error cause next =>
        rw [run_of_error (narrow_of_error hs)] at hm
        cases hm
    | ok bits next =>
        obtain ⟨hb, hl⟩ := h.selected_eq_ok (h.selected_of_search hs)
        obtain ⟨wide, hw, -⟩ := h.widen_eq_ok hb hl
        rw [run_of_ok (narrow_of_ok hs hw)] at hm
        cases hm
        exact ⟨bits, next, wide, rfl, hw, rfl⟩
  · rintro ⟨hc, bits, next, wide, hs, hw, rfl⟩
    rw [filter_of_contains hc, run_of_ok (narrow_of_ok hs hw)]
    rfl

/-- The negation finds the complement. -/
theorem search_not (hs : view.search predicate .fresh = .ok bits next) :
    view.search (.not predicate) .fresh = .ok bits.not next :=
  bind_of_ok hs

theorem Invariant.rows_of_widen (h : view.Invariant) (hs : view.selected predicate = .ok bits)
    (hw : view.widen bits = .ok wide) :
    rows { view with mask := some ⟨wide⟩ } = membersAt view.rows bits.indices := by
  obtain ⟨hb, hl⟩ := h.selected_eq_ok hs
  obtain ⟨other, ho, -, -, hrows⟩ := h.widen_eq_ok hb hl
  obtain rfl := Except.ok.inj (ho.symm.trans hw)
  exact eq_membersAt hrows

open scoped Classical in
/-- **The places found** are those where the predicate holds of what the columns mean. -/
theorem Invariant.indices_of_selected (h : view.Invariant)
    (hs : view.selected predicate = .ok bits) :
    bits.indices =
      view.placesWhere fun place => predicate.Holds (Predicate.cellsOf view.meaning place) := by
  obtain ⟨hb, hl, htest⟩ := Predicate.evaluate_eq_ok (fun _ _ => Outcome.mapError_eq_ok.mp)
    (fun name column hm => h.wellFormed_of_meaning hm) hs
  rw [hb.indices_eq, hl, placesWhere]
  refine List.filter_congr fun place hp => ?_
  rw [Bool.eq_iff_iff, htest place (List.mem_range.mp hp), decide_eq_true_iff]

end Steps

/-! ### Narrowed views -/

/-- The second view is the first, narrowed to the rows that satisfy a condition. -/
def NarrowsTo (view narrowed : View) (chosen : Nat → Prop) : Prop :=
  ∃ mask, narrowed = { view with mask := some mask } ∧ mask.Picks view.table.rowCount chosen

section Narrowed

variable {view narrowed complement : View} {predicate : Predicate} {chosen other : Nat → Prop}

theorem NarrowsTo.congr (h : view.NarrowsTo narrowed chosen)
    (hc : ∀ row, chosen row ↔ other row) : view.NarrowsTo narrowed other := by
  obtain ⟨mask, rfl, hm⟩ := h
  exact ⟨mask, rfl, hm.congr hc⟩

theorem narrowsTo_congr (hc : ∀ row, chosen row ↔ other row) :
    view.NarrowsTo narrowed chosen ↔ view.NarrowsTo narrowed other :=
  ⟨fun h => h.congr hc, fun h => h.congr fun row => (hc row).symm⟩

theorem NarrowsTo.mem_rows (h : view.NarrowsTo narrowed chosen) {row : Nat} :
    row ∈ narrowed.rows ↔ chosen row := by
  obtain ⟨mask, rfl, hm⟩ := h
  exact hm.mem_rows row

theorem NarrowsTo.trans {others : View} (h : view.NarrowsTo narrowed chosen)
    (ho : narrowed.NarrowsTo others other) : view.NarrowsTo others other := by
  obtain ⟨mask, rfl, -⟩ := h
  exact ho

/-- The rows shown leave no choice. -/
theorem NarrowsTo.unique {others : View} (h : view.NarrowsTo narrowed chosen)
    (ho : view.NarrowsTo others chosen) : narrowed = others := by
  obtain ⟨mask, rfl, hm⟩ := h
  obtain ⟨mask', rfl, hm'⟩ := ho
  rw [hm.unique hm']

/-- **A view is narrowed** to those visible rows at whose places the predicate holds of what the
columns mean. -/
theorem Invariant.narrowsTo_of_filter (h : view.Invariant)
    (hf : (view.filter predicate).outcome = .ok narrowed) :
    view.NarrowsTo narrowed fun row => ∃ place, view.rows[place]? = some row ∧
      predicate.Holds (Predicate.cellsOf view.meaning place) := by
  classical
  obtain ⟨-, bits, next, wide, hs, hw, rfl⟩ := h.filter_eq_ok_iff.mp hf
  obtain ⟨hwf, hl⟩ := (h.filter hf).mask ⟨wide⟩ rfl
  have hm := h.selected_of_search hs
  refine ⟨⟨wide⟩, rfl, hwf, hl, fun row => ?_⟩
  show row ∈ rows { view with mask := some ⟨wide⟩ } ↔ _
  rw [h.rows_of_widen hm hw, h.indices_of_selected hm, mem_membersAt]
  refine exists_congr fun place => ?_
  rw [and_comm, placesWhere, List.mem_filter, List.mem_range, decide_eq_true_iff,
    h.visibleCount_eq]
  refine and_congr_right fun hp => and_iff_right ?_
  exact (List.getElem?_eq_some_iff.mp hp).1

theorem Invariant.nodup_rows (h : view.Invariant) : view.rows.Nodup :=
  h.pairwise_rows.imp Nat.ne_of_lt

/-- A narrowed view shows none but visible rows, in their order. -/
theorem Invariant.rows_filter (h : view.Invariant)
    (hf : (view.filter predicate).outcome = .ok narrowed) :
    narrowed.rows = view.rows.filter (· ∈ narrowed.rows) := by
  refine (h.filter hf).pairwise_rows.eq_of_mem_iff (h.pairwise_rows.filter _) fun row => ?_
  rw [List.mem_filter, decide_eq_true_iff, and_iff_right_of_imp]
  intro hr
  obtain ⟨place, hp, -⟩ := (h.narrowsTo_of_filter hf).mem_rows.mp hr
  exact List.mem_of_getElem? hp

/-- **A predicate and its negation** share out the visible rows. -/
theorem Invariant.rows_filter_not (h : view.Invariant)
    (hf : (view.filter predicate).outcome = .ok narrowed)
    (hc : (view.filter (.not predicate)).outcome = .ok complement) :
    complement.rows = view.rows.filter (· ∉ narrowed.rows) := by
  -- both lists ascend, so the same members make them the same list
  refine (h.filter hc).pairwise_rows.eq_of_mem_iff (h.pairwise_rows.filter _) fun row => ?_
  rw [List.mem_filter, decide_eq_true_iff, (h.narrowsTo_of_filter hc).mem_rows,
    (h.narrowsTo_of_filter hf).mem_rows]
  constructor
  · rintro ⟨place, hp, hnot⟩
    refine ⟨List.mem_of_getElem? hp, ?_⟩
    rintro ⟨other, ho, hholds⟩
    -- the row has one place only
    obtain rfl : place = other :=
      (List.getElem?_inj (List.getElem?_eq_some_iff.mp hp).1 h.nodup_rows).mp (hp.trans ho.symm)
    exact hnot hholds
  · rintro ⟨hr, hnot⟩
    obtain ⟨place, hp⟩ := List.mem_iff_getElem?.mp hr
    exact ⟨place, hp, fun hholds => hnot ⟨place, hp, hholds⟩⟩

end Narrowed

/-- Where no column read is refused, narrowing is what the columns mean it to be. -/
theorem filter_of_agrees {view : View} {predicate : Predicate}
    (hc : ∀ name ∈ predicate.columns, view.contains name = true)
    (hl : ∀ name ∈ predicate.columns,
      view.Agrees [] (view.resolve name) (view.meaning name) fun _ => False) :
    (view.filter predicate).outcome =
      (fun mask => { view with mask := some mask }) <$> view.narrowed predicate := by
  rw [filter_of_contains hc, Run.map]
  rcases (agrees_narrow_of_columns hl).run with hm | ⟨error, -, hr⟩
  · rw [hm]
  · exact hr.elim

theorem Invariant.filter_of_room {view : View} (h : view.Invariant)
    (hroom : view.virtuals.length ≤ view.maxDepth) {predicate : Predicate}
    (hc : ∀ name ∈ predicate.columns, view.contains name = true) :
    (view.filter predicate).outcome =
      (fun mask => { view with mask := some mask }) <$> view.narrowed predicate :=
  filter_of_agrees hc fun name _ => (h.agrees_resolve name).mono fun _ => h.not_refused hroom

/-- The negation of a predicate narrows wherever the predicate does. -/
theorem Invariant.exists_filter_not {view narrowed : View} (h : view.Invariant)
    {predicate : Predicate} (hf : (view.filter predicate).outcome = .ok narrowed) :
    ∃ complement, (view.filter (.not predicate)).outcome = .ok complement := by
  obtain ⟨hc, bits, next, wide, hs, -, -⟩ := h.filter_eq_ok_iff.mp hf
  obtain ⟨hb, hl⟩ := h.selected_eq_ok (h.selected_of_search hs)
  obtain ⟨other, ho, -⟩ := h.widen_eq_ok (Bits.wellFormed_not hb) hl
  exact ⟨_, h.filter_eq_ok_iff.mpr ⟨hc, bits.not, next, other, search_not hs, ho, rfl⟩⟩

/-! ### What the predicate reads -/

/-- The columns are what the view answers with when it is asked for the names, unless these lie too
deep for a single request. -/
def Provides (view : View) (names : List String) (columns : String → Column) : Prop :=
  ∀ name ∈ names, view.meaning name = .ok (columns name) ∧
    ((view.evaluate name).outcome = .ok (columns name) ∨ ∃ deepest,
      (view.evaluate name).outcome = .error (.error (.definitionTooDeep deepest view.maxDepth)))

theorem Invariant.exists_provides {view : View} (h : view.Invariant) {predicate : Predicate}
    {bits : Bits} (hs : view.selected predicate = .ok bits) :
    ∃ columns, view.Provides predicate.columns columns := by
  refine ⟨fun name => (view.meaning name).toOption.getD (.ofInts #[]), fun name hn => ?_⟩
  obtain ⟨column, hm⟩ := Predicate.exists_of_evaluate hs hn
  have hcolumn : (view.meaning name).toOption.getD (.ofInts #[]) = column := by rw [hm]; rfl
  dsimp only
  rw [hcolumn]
  exact ⟨hm, h.evaluate_of_meaning hm⟩

theorem Provides.holds_iff {view : View} {predicate : Predicate} {columns : String → Column}
    (h : view.Provides predicate.columns columns) (place : Nat) :
    predicate.Holds (Predicate.cellsOf view.meaning place) ↔
      predicate.Holds fun name => (columns name).cell place := by
  refine Predicate.holds_congr fun name hn => ?_
  rw [Predicate.cellsOf, (h name hn).1]

open scoped Classical in
/-- **A narrowed view shows exactly the visible rows that satisfy the predicate**, in their order,
and is the same view otherwise; the negation of the predicate shows the others. -/
theorem Reachable.filter_selects {view narrowed : View} (h : view.Reachable)
    {predicate : Predicate} (hf : (view.filter predicate).outcome = .ok narrowed) :
    (∃ columns, view.Provides predicate.columns columns ∧
      narrowed.rows = membersAt view.rows
        (view.placesWhere fun place => predicate.Holds fun name => (columns name).cell place)) ∧
    (∃ mask, mask.length = view.table.rowCount ∧ narrowed = { view with mask := some mask }) ∧
    ∃ complement, (view.filter (.not predicate)).outcome = .ok complement ∧
      complement.rows = view.rows.filter (· ∉ narrowed.rows) ∧
      (narrowed.rows ++ complement.rows).Perm view.rows := by
  have hi := h.invariant
  obtain ⟨-, bits, next, wide, hs, hw, hnarrowed⟩ := hi.filter_eq_ok_iff.mp hf
  have hm := hi.selected_of_search hs
  refine ⟨?_, ?_, ?_⟩
  · obtain ⟨columns, hcolumns⟩ := hi.exists_provides hm
    refine ⟨columns, hcolumns, ?_⟩
    rw [hnarrowed, hi.rows_of_widen hm hw, hi.indices_of_selected hm]
    simp only [hcolumns.holds_iff]
  · obtain ⟨-, hl⟩ := (hi.filter hf).mask ⟨wide⟩ (by rw [hnarrowed])
    rw [hnarrowed] at hl ⊢
    exact ⟨_, hl, rfl⟩
  · obtain ⟨complement, hc⟩ := hi.exists_filter_not hf
    have hrows := hi.rows_filter_not hf hc
    refine ⟨complement, hc, hrows, ?_⟩
    have hperm := List.filter_append_perm (fun row => decide (row ∈ narrowed.rows)) view.rows
    rw [← hi.rows_filter hf] at hperm
    rw [hrows]
    simpa using hperm

/-- Capitals of two characters other than those of the first text. -/
def accented : Predicate :=
  .and (.leaf "length" (.compare .eq (.int 2)))
    (.not (.leaf "capitals" (.compare .eq (.string "AB"))))

/-- Of the visible texts only the last is left, and the negation leaves the first; the text between
them stays hidden. -/
theorem filter_capitals :
    capitals.Reachable ∧ ∃ narrowed, (capitals.filter accented).outcome = .ok narrowed ∧
      narrowed.rows = [2] ∧ ∃ complement, (capitals.filter (.not accented)).outcome = .ok complement ∧
        complement.rows = [0] := by
  have hvisible : capitals.rows = [0, 2] := by decide +kernel
  have hmask : capitals.narrowed accented = .ok (.ofList [false, false, true]) := by decide +kernel
  have hf : (capitals.filter accented).outcome =
      .ok { capitals with mask := some (.ofList [false, false, true]) } := by
    rw [reachable_capitals.invariant.filter_of_room (by decide)
      (by simp [accented, contains_capitals]), hmask]
    rfl
  have hrows : rows { capitals with mask := some (.ofList [false, false, true]) } = [2] := by
    decide +kernel
  obtain ⟨-, -, complement, hc, hcomplement, -⟩ := reachable_capitals.filter_selects hf
  rw [hvisible, hrows] at hcomplement
  exact ⟨reachable_capitals, _, hf, hrows, complement, hc, hcomplement⟩

end View

end RowSieve

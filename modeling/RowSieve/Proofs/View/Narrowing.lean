import Mathlib.Data.List.Sort
import RowSieve.Proofs.Predicate
import RowSieve.Proofs.View.Reading

/-!
# Narrowing a view

What a predicate says of the visible rows is found by asking a resolver for columns, and then carried
over to the rows of the table.

* `View.Invariant.widen_eq_ok`: the rows that the widened bits select are the visible rows at the
  places of the ones.
* `View.Invariant.agrees_narrow`: narrowing agrees with `View.narrowed`, which reads the columns'
  meanings.
* `View.Invariant.filter`: a narrowed view keeps the invariant.
-/

namespace RowSieve.View

open Resolve

/-! ### Scattering -/

/-- Places inside the list of rows are looked up in it. -/
theorem foldlM_eq_raise {rows chosen : List Nat} (hc : ∀ position ∈ chosen, position < rows.length)
    (bits : Bits) :
    chosen.foldlM (fun bits position =>
        match rows.toArray[position]? with
        | some row => bits.set row true
        | none => .error (.slotOutOfRange rows.toArray.size position)) bits =
      bits.raise (chosen.filterMap (rows[·]?)) := by
  induction chosen generalizing bits with
  | nil => rfl
  | cons position chosen ih =>
      have hrow := List.getElem?_eq_getElem (hc position List.mem_cons_self)
      rw [List.foldlM_cons, List.getElem?_toArray, hrow, List.filterMap_cons_some hrow, Bits.raise,
        List.foldlM_cons]
      exact bind_congr fun changed => ih (fun p hp => hc p (List.mem_cons_of_mem _ hp)) changed

/-- **Scattering** selects the rows at the chosen places, of ascending rows. -/
theorem scatter_eq_ok {length : Nat} {rows chosen : List Nat} (hr : rows.Pairwise (· < ·))
    (hrows : ∀ row ∈ rows, row < length) (ha : chosen.Pairwise (· < ·))
    (hc : ∀ position ∈ chosen, position < rows.length) :
    ∃ wide, scatter length rows.toArray chosen = .ok wide ∧ wide.WellFormed ∧
      wide.length = length ∧ wide.indices.map some = chosen.map (rows[·]?) := by
  have hrows' : ∀ row ∈ chosen.filterMap (rows[·]?), row < length := fun row hrow => by
    obtain ⟨position, -, hp⟩ := List.mem_filterMap.mp hrow
    exact hrows row (List.mem_of_getElem? hp)
  obtain ⟨wide, hw, hwf, hl, hmem⟩ := (Bits.wellFormed_allClear length).raise_eq_ok hrows'
  refine ⟨wide, (foldlM_eq_raise hc _).trans hw, hwf, hl, ?_⟩
  -- both lists of rows ascend, so the same members make them the same list
  have hpairwise : (chosen.filterMap (rows[·]?)).Pairwise (· < ·) := by
    refine ha.filterMap _ fun position later hlt row hrow other hother => ?_
    obtain ⟨hp, rfl⟩ := List.getElem?_eq_some_iff.mp hrow
    obtain ⟨hl, rfl⟩ := List.getElem?_eq_some_iff.mp hother
    exact List.pairwise_iff_getElem.mp hr position later hp hl hlt
  have hindices : wide.indices = chosen.filterMap (rows[·]?) := by
    refine hwf.pairwise_indices.eq_of_mem_iff hpairwise fun row => ?_
    rw [hmem, Bits.indices_allClear, or_iff_left List.not_mem_nil]
  rw [hindices, List.map_filterMap_some_eq_filter_map_isSome, List.filter_eq_self]
  intro row hr
  obtain ⟨position, hp, rfl⟩ := List.mem_map.mp hr
  rw [List.getElem?_eq_getElem (hc position hp)]
  rfl

theorem Invariant.pairwise_rows {view : View} (h : view.Invariant) :
    view.rows.Pairwise (· < ·) := by
  rw [rows]
  split
  next mask hm => exact (h.mask mask hm).1.pairwise_indices
  next => exact List.pairwise_lt_range

/-- **Widening** selects, of the visible rows, those at the places of the ones. -/
theorem Invariant.widen_eq_ok {view : View} (h : view.Invariant) {bits : Bits}
    (hb : bits.WellFormed) (hl : bits.length = view.visibleCount) :
    ∃ wide, view.widen bits = .ok wide ∧ wide.WellFormed ∧
      wide.length = view.table.rowCount ∧
        wide.indices.map some = bits.indices.map (view.rows[·]?) := by
  have hplace : ∀ position ∈ bits.indices, position < view.rows.length := fun position hp => by
    rw [← h.visibleCount_eq, ← hl]
    exact (hb.mem_indices.mp hp).1
  rw [widen]
  cases hm : view.mask with
  | none =>
      have hrows : view.rows = List.range view.table.rowCount := by rw [rows, hm]
      rw [visibleCount, hm] at hl
      refine ⟨bits, rfl, hb, hl, List.map_congr_left fun position hp => ?_⟩
      rw [hrows, List.getElem?_range]
      simpa [hrows] using hplace position hp
  | some mask =>
      have hrows : view.rows = mask.rows := by rw [rows, hm]
      dsimp only
      rw [← hrows]
      exact scatter_eq_ok h.pairwise_rows (fun _ => h.lt_of_mem_rows) hb.pairwise_indices hplace

/-! ### What is narrowed to -/

/-- The visible rows that satisfy a predicate, as a resolver finds them. -/
def search (view : View) (predicate : Predicate) : Resolve Bits :=
  predicate.evaluate view.resolve fun outcome => Resolve.settle [] (outcome.mapError .data)

/-- Narrowing carries over what a resolver finds; errors that are parked make no difference. -/
theorem narrow_eq (view : View) (predicate : Predicate) :
    view.narrow predicate = (do
      let bits ← view.search predicate
      let wide ← settle [] (Outcome.ofFaulty (view.widen bits))
      record (.derived (Mask.mk wide).count view.table.rowCount)
      pure (Mask.mk wide)) := by
  rw [narrow, (Reading.follows_evaluate view predicate).unpark_eq]
  rfl

/-- The visible rows that satisfy a predicate, by the meanings of the columns. -/
def selected (view : View) (predicate : Predicate) : Outcome EvalError Bits :=
  predicate.evaluate view.meaning (Outcome.mapError .data)

/-- The mask that a view is narrowed to, by the meanings of the columns. -/
def narrowed (view : View) (predicate : Predicate) : Outcome EvalError Mask := do
  let bits ← view.selected predicate
  let wide ← Outcome.ofFaulty (view.widen bits)
  pure ⟨wide⟩

theorem Invariant.selected_eq_ok {view : View} (h : view.Invariant) {predicate : Predicate}
    {bits : Bits} (hs : view.selected predicate = .ok bits) :
    bits.WellFormed ∧ bits.length = view.visibleCount := by
  obtain ⟨hwf, hl, -⟩ := Predicate.evaluate_eq_ok (fun _ _ => Outcome.mapError_eq_ok.mp)
    (fun name column hm => h.wellFormed_of_meaning hm) hs
  exact ⟨hwf, hl⟩

/-- **The rows narrowed to** are those of the visible rows that are selected. -/
theorem Invariant.narrowed_of_selected {view : View} (h : view.Invariant) {predicate : Predicate}
    {bits : Bits} (hs : view.selected predicate = .ok bits) :
    ∃ mask, view.narrowed predicate = .ok mask ∧ mask.bits.WellFormed ∧
      mask.length = view.table.rowCount ∧
        mask.rows.map some = bits.indices.map (view.rows[·]?) := by
  obtain ⟨hb, hl⟩ := h.selected_eq_ok hs
  obtain ⟨wide, hw, hwf, hwl, hrows⟩ := h.widen_eq_ok hb hl
  refine ⟨⟨wide⟩, Outcome.bind_eq_ok.mpr ⟨bits, hs, ?_⟩, hwf, hwl, hrows⟩
  rw [hw]
  rfl

theorem Invariant.narrowed_eq_ok {view : View} (h : view.Invariant) {predicate : Predicate}
    {mask : Mask} (hn : view.narrowed predicate = .ok mask) :
    mask.bits.WellFormed ∧ mask.length = view.table.rowCount := by
  obtain ⟨bits, hs, -⟩ := Outcome.bind_eq_ok.mp hn
  obtain ⟨other, ho, hwf, hl, -⟩ := h.narrowed_of_selected hs
  obtain rfl := Except.ok.inj (ho.symm.trans hn)
  exact ⟨hwf, hl⟩

section Agreement

variable {view : View} {stuck : List String} {refused : EvalError → Prop}

theorem agrees_evaluate {lookup : String → Resolve Column}
    {meant : String → Outcome EvalError Column} {predicate : Predicate}
    (hl : ∀ name ∈ predicate.columns, view.Agrees stuck (lookup name) (meant name) refused)
    (path : List String) :
    view.Agrees stuck
      (predicate.evaluate lookup fun outcome => Resolve.settle path (outcome.mapError .data))
      (predicate.evaluate meant (Outcome.mapError .data)) refused := by
  induction predicate with
  | leaf name test => exact (hl name (by simp)).bind fun column _ => agrees_settle path _
  | and left right ihl ihr | or left right ihl ihr =>
      simp only [Predicate.mem_columns_and, Predicate.mem_columns_or] at hl
      refine (ihl fun name hn => hl name (.inl hn)).bind fun leftBits _ => ?_
      exact (ihr fun name hn => hl name (.inr hn)).bind fun rightBits _ => agrees_settle path _
  | not inner ih => exact (ih hl).bind fun bits _ => agrees_pure bits.not

/-- Narrowing agrees with what is narrowed to, if the columns read do. -/
theorem agrees_narrow_of_columns {predicate : Predicate}
    (hl : ∀ name ∈ predicate.columns,
      view.Agrees [] (view.resolve name) (view.meaning name) refused) :
    view.Agrees [] (view.narrow predicate) (view.narrowed predicate) refused := by
  rw [narrow_eq]
  refine (agrees_evaluate hl []).bind fun bits _ => ?_
  refine (agrees_settle [] _).bind fun wide _ => ?_
  exact agrees_record _ (agrees_pure _)

theorem Invariant.agrees_search (h : view.Invariant) (predicate : Predicate) :
    view.Agrees [] (view.search predicate) (view.selected predicate)
      fun error => ∃ name, view.Refused view.maxDepth [] name error :=
  agrees_evaluate (fun name _ => (h.agrees_resolve name).mono fun _ hr => ⟨name, hr⟩) []

/-- **Narrowing agrees with what is narrowed to.** -/
theorem Invariant.agrees_narrow (h : view.Invariant) (predicate : Predicate) :
    view.Agrees [] (view.narrow predicate) (view.narrowed predicate)
      fun error => ∃ name, view.Refused view.maxDepth [] name error :=
  agrees_narrow_of_columns fun name _ => (h.agrees_resolve name).mono fun _ hr => ⟨name, hr⟩

end Agreement

/-! ### Narrowed views -/

theorem narrow_of_error {view : View} {predicate : Predicate} {resolver next : Resolver}
    {cause : Abort EvalError} (hs : view.search predicate resolver = .error cause next) :
    view.narrow predicate resolver = .error cause next := by
  rw [narrow_eq]
  exact bind_of_error hs

theorem narrow_of_ok {view : View} {predicate : Predicate} {resolver next : Resolver}
    {bits wide : Bits} (hs : view.search predicate resolver = .ok bits next)
    (hw : view.widen bits = .ok wide) :
    view.narrow predicate resolver = .ok ⟨wide⟩
      { next with journal := next.journal ++ [.derived wide.count view.table.rowCount] } := by
  rw [narrow_eq]
  refine (bind_of_ok hs).trans ?_
  rw [hw]
  rfl

theorem filter_eq_ok {view result : View} {predicate : Predicate}
    (h : (view.filter predicate).outcome = .ok result) :
    (∀ name ∈ predicate.columns, view.contains name = true) ∧
      ∃ mask, ((view.narrow predicate).run .fresh).1.outcome = .ok mask ∧
        result = { view with mask := some mask } := by
  rw [View.filter] at h
  split at h
  · cases h
  next hf =>
    obtain ⟨mask, hm, rfl⟩ := Outcome.map_eq_ok.mp h
    exact ⟨fun name hn => by simpa using List.find?_eq_none.mp hf name hn, mask, hm, rfl⟩

/-- **A narrowed view keeps the invariant.** -/
theorem Invariant.filter {view result : View} (h : view.Invariant) {predicate : Predicate}
    (hf : (view.filter predicate).outcome = .ok result) : result.Invariant := by
  obtain ⟨-, mask, hm, rfl⟩ := filter_eq_ok hf
  refine h.withMask fun other ho => ?_
  cases ho
  rcases (h.agrees_narrow predicate).run with hn | ⟨error, he, -⟩
  · exact h.narrowed_eq_ok (hn.symm.trans hm)
  · cases he.symm.trans hm

end RowSieve.View

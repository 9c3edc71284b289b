import RowSieve.Proofs.Predicate.Safety
import RowSieve.Proofs.View.Requests

/-!
# Requests never end in a fault

If no function of a view gives up, then nothing else does: every row that is gathered exists, every
place that a predicate finds is that of a visible row, and bit strings that are combined are equally
long.

* `View.Invariant.calm_meaning`: what a column means is not a fault.
* `View.Guarded`: the ranges of what is looked up, set and combined on the way; every view that can
  be reached is guarded (`View.Invariant.guarded`), whatever its functions do.
* `View.Reachable.never_faults`: so no request of a view whose functions do not give up ends in a
  fault, nor does any selection from a table.
-/

namespace RowSieve

open Outcome

/-! ### Functions that do not give up -/

/-- The function answers or refuses, but does not give up, on columns that can be built. -/
def ColumnFunction.Calm (function : ColumnFunction) : Prop :=
  ∀ arguments, (∀ argument ∈ arguments, argument.Built) → Outcome.Calm (function arguments)

/-- No function of the registry gives up. -/
def Registry.Calm (registry : Registry) : Prop :=
  ∀ name function, registry.get? name = some function → function.Calm

theorem TextFunction.calm_call (function : TextFunction) : function.call.Calm := by
  intro arguments _
  unfold call
  split
  next input =>
    split
    · exact calm_error _
    · split
      · exact calm_ofExcept _
      · exact calm_ok _
  · exact calm_error _

/-! ### Ranges -/

/-- The bit string has a bit for each of so many rows, and every operation on it in place ends as
the one on the whole string says. -/
def Bits.Spans (bits : Bits) (rows : Nat) : Prop :=
  bits.length = rows ∧ (rows + 63 < UInt64.size → InPlace.Agrees bits)

/-- The column has so many rows, and its validity a bit for each. -/
def Column.Spans (column : Column) (rows : Nat) : Prop :=
  column.length = rows ∧ ∀ validity, column.validity = some validity → validity.Spans rows

theorem Bits.WellFormed.spans {bits : Bits} (h : bits.WellFormed) : bits.Spans bits.length :=
  ⟨rfl, h.agrees⟩

theorem Column.WellFormed.spans {column : Column} (h : column.WellFormed) :
    column.Spans column.length := by
  refine ⟨rfl, fun validity hv => ?_⟩
  obtain ⟨hwf, hl, -⟩ := h validity hv
  exact hl ▸ hwf.spans

namespace View

/-! ### What is meant -/

section Meaning

variable {view : View}

/-- **What a column means** is not a fault. -/
theorem Invariant.calm_meaning (h : view.Invariant) (hc : view.functions.Calm) (name : String) :
    Calm (view.meaning name) := by
  induction name using h.induction with
  | step name ih =>
      rw [h.meaning_eq, meaningFrom]
      cases hv : view.virtualColumn? name with
      | none =>
          dsimp only
          cases hg : view.table.get? name with
          | none =>
              rw [gathered, hg]
              exact calm_error _
          | some stored =>
              rw [h.gathered_eq hg]
              exact calm_ok _
      | some column =>
          dsimp only
          rw [combined]
          cases hf : view.functions.get? column.function with
          | none => exact calm_error _
          | some function =>
              refine Calm.bind (calm_mapM fun source hs => ih source ⟨column, hv, hs⟩)
                fun arguments ha => ?_
              have hbuilt : ∀ argument ∈ arguments, argument.Built := fun argument hm =>
                Column.built_iff.mpr (h.wellFormed_of_arguments ha argument hm)
              refine Calm.bind ((hc _ _ hf arguments hbuilt).mapError _) fun output _ => ?_
              split
              · exact calm_ok _
              · exact calm_error _

theorem Invariant.calm_narrowed (h : view.Invariant) (hc : view.functions.Calm)
    (predicate : Predicate) : Calm (view.narrowed predicate) := by
  have hselected : Calm (view.selected predicate) :=
    Predicate.calm_evaluate (fun _ _ => mapError_eq_ok.mp) (fun _ hcalm => hcalm.mapError _)
      (fun _ _ hm => h.wellFormed_of_meaning hm) fun name _ => h.calm_meaning hc name
  refine hselected.bind fun bits hs => calm_of_eq_ok ?_
  obtain ⟨hwf, hl⟩ := h.selected_eq_ok hs
  obtain ⟨wide, hw, -⟩ := h.widen_eq_ok hwf hl
  exact ⟨⟨wide⟩, bind_eq_ok.mpr ⟨wide, ofFaulty_eq_ok.mpr hw, rfl⟩⟩

theorem Invariant.calm_extracted (h : view.Invariant) (hc : view.functions.Calm) :
    Calm view.extracted := by
  rw [extracted]
  refine calm_foldlM (fun table name _ => ?_) _
  exact (h.calm_meaning hc name).bind fun column _ => calm_ofExcept _

/-- What is as meant, or else a refusal, is not a fault. -/
theorem calm_of_eq_or_refused {α : Type} {outcome meant : Outcome EvalError α} (hc : Calm meant)
    {refused : EvalError → Prop}
    (h : outcome = meant ∨ ∃ error, outcome = .error (.error error) ∧ refused error) :
    Calm outcome := by
  rcases h with rfl | ⟨error, rfl, -⟩
  · exact hc
  · exact calm_error error

end Meaning

/-! ### What is looked up -/

/-- **Everything stays in its range.**  A resolver that is asked may have been asked before, as long
as what it remembers is what the columns mean. -/
structure Guarded (view : View) : Prop where
  /-- The rows that are gathered are those of every stored column and of its validity. -/
  gathered : ∀ name stored, view.table.get? name = some stored →
    stored.Spans view.table.rowCount ∧ ∀ row ∈ view.rows, row < stored.length
  /-- The columns that a predicate reads have a row for every visible one. -/
  resolved : ∀ name resolver, view.MemoSound resolver → resolver.stuck = [] →
    ∀ column next, view.resolve name resolver = .ok column next → column.Spans view.rows.length
  /-- The bits found for a predicate, or for a part of one, have a bit for every visible row, and
  the resolver may be asked on. -/
  found : ∀ predicate resolver, view.MemoSound resolver → resolver.stuck = [] →
    ∀ bits next, view.search predicate resolver = .ok bits next →
      bits.Spans view.rows.length ∧ view.MemoSound next ∧ next.stuck = []
  /-- The bits found for the two sides of a connective are equally long. -/
  combined : ∀ left right resolver, view.MemoSound resolver → resolver.stuck = [] →
    ∀ leftBits middle, view.search left resolver = .ok leftBits middle →
      ∀ rightBits next, view.search right middle = .ok rightBits next →
        leftBits.length = rightBits.length
  /-- The places of the ones are those of visible rows, and these are rows of the table. -/
  placed : ∀ predicate resolver, view.MemoSound resolver → resolver.stuck = [] →
    ∀ bits next, view.search predicate resolver = .ok bits next →
      ∀ place ∈ bits.indices, ∃ row, view.rows[place]? = some row ∧ row < view.table.rowCount
  /-- While the rows are set one after another there is a bit for every row of the table. -/
  scattered : ∀ predicate resolver, view.MemoSound resolver → resolver.stuck = [] →
    ∀ bits next, view.search predicate resolver = .ok bits next →
      ∀ places, places <+: bits.indices →
        ∃ wide, scatter view.table.rowCount view.rows.toArray places = .ok wide ∧
          wide.Spans view.table.rowCount

section Guarded

variable {view : View}

theorem Invariant.spans_of_resolve (h : view.Invariant) {name : String} {resolver next : Resolver}
    (hm : view.MemoSound resolver) (hs : resolver.stuck = []) {column : Column}
    (hr : view.resolve name resolver = .ok column next) : column.Spans view.rows.length := by
  have ha := h.agrees_resolve name resolver hm hs
  rw [hr] at ha
  cases ha with
  | ok _ _ hmeaning =>
      obtain ⟨hwf, hl⟩ := h.wellFormed_of_meaning hmeaning
      rw [← h.visibleCount_eq, ← hl]
      exact hwf.spans

theorem Invariant.selected_of_answer (h : view.Invariant) {predicate : Predicate}
    {resolver next : Resolver} (hm : view.MemoSound resolver) (hs : resolver.stuck = [])
    {bits : Bits} (hb : view.search predicate resolver = .ok bits next) :
    view.selected predicate = .ok bits ∧ view.MemoSound next ∧ next.stuck = [] := by
  have ha := h.agrees_search predicate resolver hm hs
  rw [hb] at ha
  cases ha with
  | ok hsound hstuck hselected => exact ⟨hselected, hsound, hstuck⟩

/-- The ones of bits found for a predicate are at the places of visible rows. -/
theorem Invariant.lt_of_mem_indices (h : view.Invariant) {predicate : Predicate} {bits : Bits}
    (hs : view.selected predicate = .ok bits) {place : Nat} (hp : place ∈ bits.indices) :
    place < view.rows.length := by
  obtain ⟨hwf, hl⟩ := h.selected_eq_ok hs
  rw [← h.visibleCount_eq, ← hl]
  exact (hwf.mem_indices.mp hp).1

theorem Invariant.spans_of_search (h : view.Invariant) {predicate : Predicate}
    {resolver next : Resolver} (hm : view.MemoSound resolver) (hs : resolver.stuck = [])
    {bits : Bits} (hb : view.search predicate resolver = .ok bits next) :
    bits.Spans view.rows.length := by
  obtain ⟨hwf, hl⟩ := h.selected_eq_ok (h.selected_of_answer hm hs hb).1
  rw [← h.visibleCount_eq, ← hl]
  exact hwf.spans

/-- **Every view that keeps the invariant** is guarded. -/
theorem Invariant.guarded (h : view.Invariant) : view.Guarded where
  gathered := fun name stored hg => by
    obtain ⟨hwf, hl⟩ := h.table.wellFormed_of_get? hg
    exact ⟨hl ▸ hwf.spans, fun row hr => hl ▸ h.lt_of_mem_rows hr⟩
  resolved := fun _ _ hm hs _ _ hr => h.spans_of_resolve hm hs hr
  found := fun _ _ hm hs _ _ hb =>
    ⟨h.spans_of_search hm hs hb, (h.selected_of_answer hm hs hb).2⟩
  combined := fun left right resolver hm hs leftBits middle hleft rightBits next hright => by
    obtain ⟨-, hmiddle, hstuck⟩ := h.selected_of_answer hm hs hleft
    exact (h.spans_of_search hm hs hleft).1.trans (h.spans_of_search hmiddle hstuck hright).1.symm
  placed := fun predicate resolver hm hs bits next hb place hp => by
    have hlt := h.lt_of_mem_indices (h.selected_of_answer hm hs hb).1 hp
    exact ⟨_, List.getElem?_eq_getElem hlt, h.lt_of_mem_rows (List.getElem_mem hlt)⟩
  scattered := fun predicate resolver hm hs bits next hb places hp => by
    have hselected := (h.selected_of_answer hm hs hb).1
    obtain ⟨hwf, -⟩ := h.selected_eq_ok hselected
    obtain ⟨wide, hw, hwwf, hwl, -⟩ := scatter_eq_ok h.pairwise_rows
      (fun _ => h.lt_of_mem_rows) (hwf.pairwise_indices.sublist hp.sublist)
      fun place hmem => h.lt_of_mem_indices hselected (hp.subset hmem)
    exact ⟨wide, hw, hwl ▸ hwwf.spans⟩

end Guarded

/-! ### Requests -/

/-- **No request ends in a fault**, if no function of the view gives up: neither for a column nor by
a predicate nor for all columns.  Whatever is looked up, set and combined on the way is in its
range.  Nor does a predicate put to a table end in a fault. -/
theorem Reachable.never_faults {view : View} (h : view.Reachable) (hc : view.functions.Calm) :
    (∀ name, Calm (view.evaluate name).outcome) ∧
      (∀ predicate, Calm (view.filter predicate).outcome) ∧ Calm view.extract.outcome ∧
      view.Guarded ∧
      ∀ table : Table, table.Built → ∀ predicate : Predicate, Calm (table.select predicate) ∧
        ∀ mask, table.select predicate = .ok mask → mask.bits.Spans table.rowCount := by
  have hi := h.invariant
  refine ⟨fun name => ?_, fun predicate => ?_, ?_, hi.guarded, fun table ht predicate => ⟨?_, ?_⟩⟩
  · exact calm_of_eq_or_refused (hi.calm_meaning hc name) (hi.evaluate_eq name)
  · rw [filter]
    split
    · exact calm_error _
    · refine Calm.map ?_ _
      exact calm_of_eq_or_refused (hi.calm_narrowed hc predicate) (hi.agrees_narrow predicate).run
  · exact calm_of_eq_or_refused (hi.calm_extracted hc) hi.extract_eq
  · exact Table.calm_select ht.wellFormed predicate
  · intro mask hm
    obtain ⟨bits, hbits, rfl⟩ := map_eq_ok.mp hm
    obtain ⟨hwf, hl, -⟩ := Predicate.evaluate_eq_ok (fun _ _ => id)
      (fun _ _ => ht.wellFormed.wellFormed_of_column) hbits
    exact hl ▸ hwf.spans

theorem calm_capitals : capitals.functions.Calm := by
  intro name function hf
  have hm : (name, function) ∈ TextFunction.named := Registry.mem_of_get? hf
  simp only [TextFunction.named, List.mem_cons, Prod.mk.injEq, List.not_mem_nil, or_false] at hm
  rcases hm with ⟨-, rfl⟩ | ⟨-, rfl⟩ | ⟨-, rfl⟩ | ⟨-, rfl⟩ <;> exact TextFunction.calm_call _

/-- The functions on texts do not give up, so neither does a request for lengths that are put to a
test. -/
theorem never_faults_capitals :
    capitals.Reachable ∧ capitals.functions.Calm ∧
      Calm (capitals.filter (.not (.leaf "length" (.compare .lt (.int 3))))).outcome ∧
        Calm capitals.extract.outcome := by
  obtain ⟨-, hfilter, hextract, -⟩ := reachable_capitals.never_faults calm_capitals
  exact ⟨reachable_capitals, calm_capitals, hfilter _, hextract⟩

end View

end RowSieve

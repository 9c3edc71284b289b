import RowSieve.Proofs.Column.RoundTrip
import RowSieve.Proofs.Column.SameCells
import RowSieve.Proofs.View.Reports

/-!
# Lifted functions, and the columns they compute

A function on cells is applied to the rows of the first argument, one after another, and its results
become a column if they have one type.

* `ColumnFunction.exists_elementwise_iff`, `ColumnFunction.exists_elementwise_eq_error`: when they
  do, and what is told when they do not.
* `View.Reachable.failure_of_lifted`: what a view reports of such a function.
* `View.Invariant.exists_holds_of_lifted`, `View.Invariant.exists_failure_of_lifted`: what a column
  of such a function means.
* `ColumnFunction.lifted_rows`: all of this.
-/

namespace RowSieve

/-- The values have one type, not counting nulls. -/
def Scalar.OneKind (values : List Scalar) : Prop :=
  ∃ kind, ∀ value ∈ values, ∀ actual, value.kind? = some actual → actual = kind

namespace ColumnFunction

/-! ### Calls -/

/-- The results of a function on cells for the rows of the first column. -/
def results (f : List Scalar → Scalar) (first : Column) (rest : List Column) : List Scalar :=
  (List.range first.length).map fun row => f (Column.rowOf (first :: rest) row)

/-- **Types that disagree** are told with the first row in which they do. -/
def Disagreement (values : List Scalar) (failure : Failure) : Prop :=
  ∃ row expected actual, Column.FirstDisagreement values row expected actual ∧
    failure = .data
      (.typeMismatch s!"inferred column value at row {row}" expected.name actual.name)

section Calls

variable {f : List Scalar → Scalar} {first : Column} {rest : List Column}

theorem elementwise_eq_ok {output : Column} :
    elementwise f (first :: rest) = .ok output ↔ Column.infer (results f first rest) = .ok output :=
  Outcome.ofExcept_eq_ok.trans Outcome.exceptMapError_eq_ok

/-- **Results of one type** are just what makes a column. -/
theorem exists_elementwise_iff :
    (∃ output, elementwise f (first :: rest) = .ok output) ↔
      Scalar.OneKind (results f first rest) := by
  simp only [elementwise_eq_ok]
  exact Column.exists_infer_iff

/-- **A column of values**: it holds them as they are and has their type, that of floating-point
numbers if all are null. -/
structure Holds (values : List Scalar) (output : Column) : Prop where
  values_eq : output.values = values
  kind_eq : ∀ value ∈ values, ∀ actual, value.kind? = some actual → actual = output.kind
  nulls : (∀ value ∈ values, value = .null) → output.kind = .float

theorem holds_of_elementwise {output : Column} (h : elementwise f (first :: rest) = .ok output) :
    Holds (results f first rest) output := by
  rw [elementwise_eq_ok] at h
  refine ⟨Column.values_of_infer h, fun value hv actual => Column.kind?_of_infer h hv, ?_⟩
  intro hnull
  rw [Column.kind_of_infer h, Column.firstKind_of_nulls hnull]

/-- **Results of several types** are refused with the first that disagrees. -/
theorem exists_elementwise_eq_error (h : ¬ Scalar.OneKind (results f first rest)) :
    ∃ failure, Disagreement (results f first rest) failure ∧
      elementwise f (first :: rest) = .error (.error failure) := by
  obtain ⟨row, expected, actual, hrow, herror⟩ := Column.exists_infer_eq_error h
  refine ⟨_, ⟨row, expected, actual, hrow, rfl⟩, ?_⟩
  show Outcome.ofExcept ((Column.infer (results f first rest)).mapError Failure.data) = _
  rw [herror]
  rfl

/-- Whatever is refused is refused because the types disagree. -/
theorem disagreement_of_elementwise {failure : Failure}
    (h : elementwise f (first :: rest) = .error (.error failure)) :
    Disagreement (results f first rest) failure := by
  by_cases hone : Scalar.OneKind (results f first rest)
  · obtain ⟨output, ho⟩ := exists_elementwise_iff.mpr hone
    cases ho.symm.trans h
  · obtain ⟨other, hother, herror⟩ := exists_elementwise_eq_error hone
    cases herror.symm.trans h
    exact hother

/-- A lifted function keeps the rows. -/
theorem keepsRows_elementwise (f : List Scalar → Scalar) : (elementwise f).KeepsRows := by
  intro arguments rows output ha ho
  cases arguments with
  | nil => cases ho
  | cons first rest =>
      rw [← Column.length_values, (holds_of_elementwise ho).values_eq, results, List.length_map,
        List.length_range]
      exact (ha first List.mem_cons_self).2

end Calls

end ColumnFunction

/-! ### Views -/

namespace View

open ColumnFunction

variable {view : View} {name : String} {column : VirtualColumn} {f : List Scalar → Scalar}

/-- **A failure that is reported** for a column of a lifted function: the results for what its
sources mean have several types. -/
theorem Reachable.failure_of_lifted (h : view.Reachable)
    (hc : view.virtualColumn? name = some column)
    (hf : view.functions.get? column.function = some (elementwise f)) (hs : column.sources ≠ [])
    {called : String} {failure : Failure}
    (hr : view.Reports (.functionFailed called name failure)) :
    called = column.function ∧ ∃ first rest,
      column.sources.mapM view.meaning = .ok (first :: rest) ∧
        Disagreement (results f first rest) failure := by
  obtain ⟨hcalled, arguments, ha, hfailure⟩ := h.exists_failure hc hf hr
  have hlength := (Outcome.mapM_eq_ok.mp ha).length_eq
  cases arguments with
  | nil => exact absurd (List.eq_nil_of_length_eq_zero hlength) hs
  | cons first rest => exact ⟨hcalled, first, rest, ha, disagreement_of_elementwise hfailure⟩

theorem Invariant.meaning_of_lifted (h : view.Invariant)
    (hc : view.virtualColumn? name = some column)
    (hf : view.functions.get? column.function = some (elementwise f)) {first : Column}
    {rest : List Column} (ha : column.sources.mapM view.meaning = .ok (first :: rest)) :
    view.meaning name = view.applied column (elementwise f) (first :: rest) := by
  rw [h.meaning_of_virtual hc, combined, hf]
  dsimp only
  rw [ha]
  rfl

/-- **What the column means**: the results for what its sources mean, if they have one type. -/
theorem Invariant.exists_holds_of_lifted (h : view.Invariant)
    (hc : view.virtualColumn? name = some column)
    (hf : view.functions.get? column.function = some (elementwise f)) {first : Column}
    {rest : List Column} (ha : column.sources.mapM view.meaning = .ok (first :: rest))
    (hone : Scalar.OneKind (results f first rest)) :
    ∃ output, view.meaning name = .ok output ∧ Holds (results f first rest) output := by
  obtain ⟨output, ho⟩ := exists_elementwise_iff.mpr hone
  have hrows := keepsRows_elementwise f _ _ output (h.rows_of_arguments ha) ho
  refine ⟨output, ?_, holds_of_elementwise ho⟩
  rw [h.meaning_of_lifted hc hf ha]
  exact Invariant.applied_eq_ok.mpr ⟨ho, hrows⟩

/-- **Otherwise the failure surfaces** under the name of the column. -/
theorem Invariant.exists_failure_of_lifted (h : view.Invariant)
    (hc : view.virtualColumn? name = some column)
    (hf : view.functions.get? column.function = some (elementwise f)) {first : Column}
    {rest : List Column} (ha : column.sources.mapM view.meaning = .ok (first :: rest))
    (hone : ¬ Scalar.OneKind (results f first rest)) :
    ∃ failure, Disagreement (results f first rest) failure ∧ view.meaning name =
      .error (.error (.functionFailed column.function column.name failure)) := by
  obtain ⟨failure, hdisagree, herror⟩ := exists_elementwise_eq_error hone
  refine ⟨failure, hdisagree, ?_⟩
  rw [h.meaning_of_lifted hc hf ha, applied, appliedOver, herror]
  rfl

end View

namespace ColumnFunction

/-- **Row by row.**  A lifted function takes the cells of every row of its first column, nulls where
another column is shorter, and makes a column of the results if they have one type; otherwise it
tells the first that disagrees.  For a virtual column it is never reported for the length, and a
failure comes with what it told. -/
theorem lifted_rows (f : List Scalar → Scalar) :
    (∀ first rest, (∀ argument ∈ first :: rest, argument.Built) →
      (∀ argument ∈ first :: rest, ∀ row, argument.readCell row = .ok (argument.cell row) ∧
        (argument.length ≤ row → argument.cell row = .null)) ∧
      ((∃ output, elementwise f (first :: rest) = .ok output) ↔
        Scalar.OneKind (results f first rest)) ∧
      (∀ output, elementwise f (first :: rest) = .ok output →
        Holds (results f first rest) output) ∧
      (¬ Scalar.OneKind (results f first rest) → ∃ failure,
        Disagreement (results f first rest) failure ∧
          elementwise f (first :: rest) = .error (.error failure))) ∧
    ∀ view : View, view.Reachable → ∀ name column, view.virtualColumn? name = some column →
      view.functions.get? column.function = some (elementwise f) → column.sources ≠ [] →
        (∀ called expected actual, ¬ view.Reports (.arityMismatch name called expected actual)) ∧
        (∀ called failure, view.Reports (.functionFailed called name failure) →
          called = column.function ∧ ∃ first rest,
            column.sources.mapM view.meaning = .ok (first :: rest) ∧
              Disagreement (results f first rest) failure) ∧
        ∀ first rest, column.sources.mapM view.meaning = .ok (first :: rest) →
          (∀ chain, view.VirtualChain (name :: chain) →
            (name :: chain).length ≤ view.maxDepth) →
          (Scalar.OneKind (results f first rest) → ∃ output,
            (view.evaluate name).outcome = .ok output ∧ Holds (results f first rest) output) ∧
          (¬ Scalar.OneKind (results f first rest) → ∃ failure,
            Disagreement (results f first rest) failure ∧ (view.evaluate name).outcome =
              .error (.error (.functionFailed column.function name failure))) := by
  refine ⟨fun first rest hb => ⟨fun argument hm row => ?_, exists_elementwise_iff,
    fun output => holds_of_elementwise, exists_elementwise_eq_error⟩,
    fun view hv name column hc hf hs => ⟨?_, ?_, fun first rest ha hchain => ?_⟩⟩
  · exact ⟨Column.readCell_eq (hb argument hm).wellFormed row, Column.cell_of_length_le⟩
  · exact hv.not_reports_arity hc hf (keepsRows_elementwise f)
  · exact fun called failure => hv.failure_of_lifted hc hf hs
  · have hi := hv.invariant
    rw [(hv.evaluate_eq_meaning.2 name).1 hchain]
    obtain rfl := (hi.virtualColumn?_eq_some_iff.mp hc).2
    exact ⟨hi.exists_holds_of_lifted hc hf ha, hi.exists_failure_of_lifted hc hf ha⟩

end ColumnFunction

/-! ### A view of marks -/

namespace View

open ColumnFunction

/-- A score, in words when it is high. -/
def mark : List Scalar → Scalar
  | [.int score] => if 3 < score then .string "high" else .int score
  | _ => .null

/-- Two scores, with the function that marks the high one. -/
def unmarked : View where
  table := ⟨[("score", .ofInts #[1, 5])]⟩
  mask := none
  functions := ⟨[("mark", .elementwise mark)]⟩
  virtuals := []
  positions := ∅
  maxDepth := defaultMaxDepth

/-- The scores and their marks. -/
def marks : View :=
  unmarked.insertVirtual ⟨"grade", "mark", ["score"]⟩

theorem reachable_marks : marks.Reachable := by
  have ht : Table.Built unmarked.table := .addColumn .empty (.ofInts _) rfl
  have hu : unmarked.Reachable := (Reachable.ofTable ht).after
    (show (Operation.register "mark" (.elementwise mark)).Sound from
      ColumnFunction.sound_elementwise mark)
  have hcontains : ∀ name, unmarked.contains name = (name == "score") :=
    contains_of_names rfl rfl
  exact hu.insertVirtual (by simp [hcontains]) rfl (by simp [hcontains])

/-- One mark is a number and the other is a text. -/
theorem not_oneKind_mark : ¬ Scalar.OneKind (results mark (.ofInts #[1, 5]) []) := by
  have hresults : results mark (.ofInts #[1, 5]) [] = [.int 1, .string "high"] := rfl
  rw [hresults]
  simp [Scalar.OneKind, Scalar.kind?]

/-- The second mark disagrees with the first, and the failure surfaces. -/
theorem lifted_rows_mark :
    (∀ argument ∈ [Column.ofInts #[1, 5]], argument.Built) ∧
      ¬ Scalar.OneKind (results mark (.ofInts #[1, 5]) []) ∧
      (∃ failure, Disagreement (results mark (.ofInts #[1, 5]) []) failure ∧
        elementwise mark [.ofInts #[1, 5]] = .error (.error failure)) ∧
      marks.Reachable ∧
      ∃ failure, Disagreement (results mark (.ofInts #[1, 5]) []) failure ∧
        (marks.evaluate "grade").outcome =
          .error (.error (.functionFailed "mark" "grade" failure)) ∧
        marks.Reports (.functionFailed "mark" "grade" failure) := by
  have hi := reachable_marks.invariant
  have hbuilt : ∀ argument ∈ [Column.ofInts #[1, 5]], argument.Built := by
    simpa using Column.Built.ofInts #[1, 5]
  have hgrade : marks.virtualColumn? "grade" = some ⟨"grade", "mark", ["score"]⟩ :=
    hi.virtualColumn?_eq_some_iff.mpr ⟨by decide, rfl⟩
  have hscore : marks.virtualColumn? "score" = none :=
    hi.virtualColumn?_eq_none_iff.mpr (by decide)
  have hstored : marks.table.get? "score" = some (.ofInts #[1, 5]) := rfl
  have harguments : ["score"].mapM marks.meaning = .ok [.ofInts #[1, 5]] := by
    rw [List.mapM_cons, hi.meaning_of_not_virtual hscore, hi.gathered_eq hstored,
      hi.taken_rows rfl hstored]
    rfl
  obtain ⟨hcalls, hviews⟩ := lifted_rows mark
  obtain ⟨-, -, hcolumns⟩ := hviews marks reachable_marks "grade" _ hgrade rfl (by simp)
  obtain ⟨failure, hdisagree, he⟩ := (hcolumns _ [] harguments fun chain hc =>
    (hi.length_le_of_virtualChain hc).trans (by decide)).2 not_oneKind_mark
  exact ⟨hbuilt, not_oneKind_mark, (hcalls _ [] hbuilt).2.2.2 not_oneKind_mark, reachable_marks,
    failure, hdisagree, he, hi.reports_of_evaluate he⟩

end View

end RowSieve

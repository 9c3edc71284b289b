import RowSieve.Proofs.Outcome
import RowSieve.Proofs.View.Invariant

/-!
# What a column means

The meaning of a stored column is its cells at the visible rows; that of a virtual column is its
function, applied to the meanings of its sources.  Nothing is remembered from one column to another.

`View.meaningFrom` is that rule, with the meanings of the sources given.  `View.meaning` goes down
the declarations, latest first, and so needs no measure.

* `View.Invariant.meaning_eq`: the meaning follows the rule, and `View.Invariant.meaning_unique`:
  nothing else does.
* `View.Invariant.wellFormed_of_meaning`: a column has one row for every visible row.
* `View.Invariant.exists_callFails`: why a column has no meaning.
-/

namespace RowSieve.View

/-! ### The rule -/

/-- A stored column at the visible rows. -/
def gathered (view : View) (name : String) : Outcome EvalError Column :=
  match view.table.get? name with
  | none => .error (.error (.data (.unknownColumn name)))
  | some stored => Outcome.ofFaulty (stored.take view.rows)

/-- A virtual column from its arguments: what the function says, as long as it is one value for
each of so many rows. -/
def appliedOver (rows : Nat) (column : VirtualColumn) (function : ColumnFunction)
    (arguments : List Column) : Outcome EvalError Column := do
  let output ←
    Outcome.mapError (.functionFailed column.function column.name) (function arguments)
  if output.length = rows then .ok output
  else .error (.error (.arityMismatch column.name column.function rows output.length))

/-- A virtual column from its arguments, with one value for every visible row. -/
def applied (view : View) : VirtualColumn → ColumnFunction → List Column →
    Outcome EvalError Column :=
  appliedOver view.visibleCount

/-- A virtual column from its sources, the first of which that has no meaning decides. -/
def combined (view : View) (meaning : String → Outcome EvalError Column) (column : VirtualColumn) :
    Outcome EvalError Column :=
  match view.functions.get? column.function with
  | none => .error (.error (.unknownFunction column.function))
  | some function => do
    let arguments ← column.sources.mapM meaning
    view.applied column function arguments

/-- **What a column means**, if `meaning` is what its sources mean. -/
def meaningFrom (view : View) (meaning : String → Outcome EvalError Column) (name : String) :
    Outcome EvalError Column :=
  match view.virtualColumn? name with
  | none => view.gathered name
  | some column => view.combined meaning column

/-- What a column means when these are the virtual columns, latest first. -/
def meaningAmong (view : View) : List VirtualColumn → String → Outcome EvalError Column
  | [], name => view.gathered name
  | column :: earlier, name =>
    if name = column.name then view.combined (view.meaningAmong earlier) column
    else view.meaningAmong earlier name

/-- The meaning of a column. -/
def meaning (view : View) (name : String) : Outcome EvalError Column :=
  view.meaningAmong view.virtuals.reverse name

theorem combined_congr {view : View} {f g : String → Outcome EvalError Column}
    {column : VirtualColumn} (h : ∀ source ∈ column.sources, f source = g source) :
    view.combined f column = view.combined g column := by
  rw [combined, combined, Outcome.mapM_congr h]

theorem meaningAmong_append {view : View} {later earlier : List VirtualColumn} {name : String}
    (hn : ∀ column ∈ later, name ≠ column.name) :
    view.meaningAmong (later ++ earlier) name = view.meaningAmong earlier name := by
  induction later with
  | nil => rfl
  | cons column later ih =>
      rw [List.cons_append, meaningAmong, if_neg (hn column List.mem_cons_self)]
      exact ih fun other ho => hn other (List.mem_cons_of_mem column ho)

/-- **The call for a virtual column fails**: its sources mean something, and its function makes no
column for every visible row of what they mean. -/
def CallFails (view : View) (name : String) (error : EvalError) : Prop :=
  ∃ column function arguments, view.virtualColumn? name = some column ∧
    view.functions.get? column.function = some function ∧
      column.sources.mapM view.meaning = .ok arguments ∧
        view.applied column function arguments = .error (.error error)

namespace Invariant

variable {view : View}

/-! ### The meaning follows the rule -/

theorem meaning_of_not_virtual (h : view.Invariant) {name : String}
    (hn : view.virtualColumn? name = none) : view.meaning name = view.gathered name := by
  rw [h.virtualColumn?_eq_none_iff, virtualNames, List.mem_map] at hn
  rw [meaning, ← List.append_nil view.virtuals.reverse]
  refine meaningAmong_append fun column hc he => hn ⟨column, List.mem_reverse.mp hc, he.symm⟩

theorem meaning_of_virtual (h : view.Invariant) {name : String} {column : VirtualColumn}
    (hc : view.virtualColumn? name = some column) :
    view.meaning name = view.combined view.meaning column := by
  obtain ⟨hm, rfl⟩ := h.virtualColumn?_eq_some_iff.mp hc
  obtain ⟨before, after, hsplit⟩ := List.append_of_mem hm
  have hreverse : view.virtuals.reverse =
      after.reverse ++ (column :: before.reverse) := by simp [hsplit]
  -- A later declaration ranks above this one, and what this one needs ranks below it.
  have hrank : view.rank column.name = before.length + 1 := h.rank_eq (by simp [virtualNames, hsplit])
  have hafter : ∀ source, view.rank source ≤ view.rank column.name →
      ∀ other ∈ after.reverse, source ≠ other.name := by
    rintro source hs other ho rfl
    obtain ⟨distance, hd⟩ := List.mem_iff_getElem?.mp (List.mem_reverse.mp ho)
    have hlater : view.rank other.name = before.length + 1 + distance + 1 := h.rank_eq (by
      rw [virtualNames, hsplit, List.getElem?_map, List.getElem?_append_right (by omega),
        show before.length + 1 + distance - before.length = distance + 1 by omega,
        List.getElem?_cons_succ, hd]
      rfl)
    omega
  rw [meaning, hreverse, meaningAmong_append (hafter column.name (Nat.le_refl _)), meaningAmong,
    if_pos rfl]
  refine combined_congr fun source hs => ?_
  have hd : view.DirectSource column.name source := ⟨column, hc, hs⟩
  rw [meaning, hreverse, meaningAmong_append (hafter source (Nat.le_of_lt (h.rank_lt hd))),
    meaningAmong, if_neg]
  rintro rfl
  exact h.not_transGen_self hd .refl

/-- **The meaning follows the rule.** -/
theorem meaning_eq (h : view.Invariant) (name : String) :
    view.meaning name = view.meaningFrom view.meaning name := by
  rw [meaningFrom]
  cases hc : view.virtualColumn? name with
  | none => exact h.meaning_of_not_virtual hc
  | some column => exact h.meaning_of_virtual hc

/-- **Nothing else follows the rule.** -/
theorem meaning_unique (h : view.Invariant) {other : String → Outcome EvalError Column}
    (ho : ∀ name, other name = view.meaningFrom other name) (name : String) :
    other name = view.meaning name := by
  induction name using h.induction with
  | step name ih =>
      rw [ho, h.meaning_eq, meaningFrom, meaningFrom]
      cases hc : view.virtualColumn? name with
      | none => rfl
      | some column => exact combined_congr fun source hs => ih source ⟨column, hc, hs⟩

/-! ### Columns that mean something -/

theorem gathered_eq (h : view.Invariant) {name : String} {stored : Column}
    (hg : view.table.get? name = some stored) :
    view.gathered name = .ok (stored.taken view.rows) := by
  obtain ⟨hwf, hl⟩ := h.table.wellFormed_of_get? hg
  rw [gathered, hg]
  exact congrArg Outcome.ofFaulty
    (Column.take_eq hwf fun row hr => hl ▸ h.lt_of_mem_rows hr)

theorem applied_eq_ok {column : VirtualColumn} {function : ColumnFunction}
    {arguments : List Column} {result : Column} :
    view.applied column function arguments = .ok result ↔
      function arguments = .ok result ∧ result.length = view.visibleCount := by
  rw [applied, appliedOver, Outcome.bind_eq_ok]
  simp only [Outcome.mapError_eq_ok]
  constructor
  · rintro ⟨output, ho, h⟩
    split at h
    next hl =>
      obtain rfl := Except.ok.inj h
      exact ⟨ho, hl⟩
    · cases h
  · rintro ⟨ho, hl⟩
    exact ⟨result, ho, if_pos hl⟩

theorem gathered_eq_ok (h : view.Invariant) {name : String} {column : Column}
    (hc : view.gathered name = .ok column) :
    ∃ stored, view.table.get? name = some stored ∧ column = stored.taken view.rows := by
  cases hg : view.table.get? name with
  | none =>
      rw [gathered, hg] at hc
      cases hc
  | some stored => exact ⟨stored, rfl, (Except.ok.inj ((h.gathered_eq hg).symm.trans hc)).symm⟩

theorem combined_eq_ok {meaning : String → Outcome EvalError Column} {column : VirtualColumn}
    {result : Column} :
    view.combined meaning column = .ok result ↔
      ∃ function arguments, view.functions.get? column.function = some function ∧
        column.sources.mapM meaning = .ok arguments ∧ function arguments = .ok result ∧
          result.length = view.visibleCount := by
  rw [combined]
  constructor
  · intro h
    split at h
    · cases h
    next function hf =>
      obtain ⟨arguments, ha, h⟩ := Outcome.bind_eq_ok.mp h
      exact ⟨function, arguments, hf, ha, applied_eq_ok.mp h⟩
  · rintro ⟨function, arguments, hf, ha, h⟩
    rw [hf]
    exact Outcome.bind_eq_ok.mpr ⟨arguments, ha, applied_eq_ok.mpr h⟩

/-- **A column that means something** has one row for every visible row. -/
theorem wellFormed_of_meaning (h : view.Invariant) {name : String} {column : Column}
    (hm : view.meaning name = .ok column) :
    column.WellFormed ∧ column.length = view.visibleCount := by
  induction name using h.induction generalizing column with
  | step name ih =>
      rw [h.meaning_eq, meaningFrom] at hm
      split at hm
      next =>
        obtain ⟨stored, -, rfl⟩ := h.gathered_eq_ok hm
        rw [Column.length_taken, h.visibleCount_eq]
        exact ⟨Column.wellFormed_taken stored view.rows, rfl⟩
      next declared hd =>
        obtain ⟨function, arguments, hf, ha, ho, hl⟩ := combined_eq_ok.mp hm
        refine ⟨(h.sound _ _ hf arguments (fun argument hmem => ?_) _ ho).wellFormed, hl⟩
        obtain ⟨source, hs, hsource⟩ := Outcome.exists_of_mem_mapM ha hmem
        exact Column.built_iff.mpr (ih source ⟨declared, hd, hs⟩ hsource).1

theorem wellFormed_of_arguments (h : view.Invariant) {sources : List String}
    {arguments : List Column} (ha : sources.mapM view.meaning = .ok arguments) :
    ∀ argument ∈ arguments, argument.WellFormed := fun argument hmem => by
  obtain ⟨source, -, hm⟩ := Outcome.exists_of_mem_mapM ha hmem
  exact (h.wellFormed_of_meaning hm).1

/-! ### Columns that mean nothing -/

theorem appliedOver_eq_error {rows : Nat} {column : VirtualColumn} {function : ColumnFunction}
    {arguments : List Column} {error : EvalError}
    (h : appliedOver rows column function arguments = .error (.error error)) :
    (∃ failure, error = .functionFailed column.function column.name failure) ∨
      ∃ actual, error = .arityMismatch column.name column.function rows actual := by
  rcases Outcome.bind_eq_error.mp h with h | ⟨output, -, h⟩
  · obtain ⟨failure, -, rfl⟩ := Outcome.mapError_eq_error.mp h
    exact .inl ⟨failure, rfl⟩
  · split at h
    · cases h
    · cases h
      exact .inr ⟨output.length, rfl⟩

/-- **Why a column means nothing**: there is no such column, or the call for a virtual column that
it needs fails. -/
theorem exists_callFails (h : view.Invariant) {name : String} {error : EvalError}
    (hm : view.meaning name = .error (.error error)) :
    (error = .data (.unknownColumn name) ∧ name ∉ view.columnNames) ∨
      ∃ needed, view.CallFails needed error := by
  induction name using h.induction with
  | step name ih =>
      rw [h.meaning_eq, meaningFrom] at hm
      split at hm
      next hv =>
        cases hg : view.table.get? name with
        | none =>
            rw [gathered, hg] at hm
            cases hm
            refine .inl ⟨rfl, fun hn => ?_⟩
            rcases List.mem_append.mp hn with hn | hn
            · exact Table.get?_eq_none_iff.mp hg hn
            · exact h.virtualColumn?_eq_none_iff.mp hv hn
        | some stored => cases (h.gathered_eq hg).symm.trans hm
      next column hc =>
        obtain ⟨hmem, -⟩ := h.virtualColumn?_eq_some_iff.mp hc
        rw [combined] at hm
        split at hm
        next hf =>
          have := h.functions column hmem
          rw [Registry.contains, hf] at this
          cases this
        next function hf =>
          rcases Outcome.bind_eq_error.mp hm with hm | ⟨arguments, ha, hm⟩
          · obtain ⟨source, hs, hm⟩ := Outcome.mapM_eq_error hm
            have hd : view.DirectSource name source := ⟨column, hc, hs⟩
            rcases ih source hd hm with ⟨-, hn⟩ | hfails
            · exact absurd (h.mem_columnNames_of_source hd) hn
            · exact .inr hfails
          · exact .inr ⟨name, column, function, arguments, hc, hf, ha, hm⟩

/-- Without a meaning there is no such column, or some function failed. -/
theorem meaning_eq_error (h : view.Invariant) {name : String} {error : EvalError}
    (hm : view.meaning name = .error (.error error)) :
    (error = .data (.unknownColumn name) ∧ name ∉ view.columnNames) ∨
      ∃ column function, (∃ failure, error = .functionFailed function column failure) ∨
        ∃ expected actual, error = .arityMismatch column function expected actual := by
  rcases h.exists_callFails hm with hn | ⟨_, column, _, _, -, -, -, hfails⟩
  · exact .inl hn
  · rcases appliedOver_eq_error hfails with ⟨failure, rfl⟩ | ⟨actual, rfl⟩
    · exact .inr ⟨_, _, .inl ⟨failure, rfl⟩⟩
    · exact .inr ⟨_, _, .inr ⟨_, actual, rfl⟩⟩

end Invariant

end RowSieve.View

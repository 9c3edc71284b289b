import RowSieve.Proofs.View.Survival

/-!
# What views report of functions

A function is reported with the virtual column that it was called for.  Whatever a view is asked, a
report of a function that failed, or made a column of the wrong length, goes back to a call that
fails by the meanings of the columns.

* `View.Reports`: the errors that a view reports.
* `View.Reachable.exists_callFails`: an error of a function comes from a failing call, and
  `View.Reachable.exists_applied`: what is reported for a virtual column is what its call ends with.
* `View.Reachable.not_reports_arity`: a function that keeps rows is never reported for the length of
  a column.
-/

namespace RowSieve

/-- The error is that of a function, called for this virtual column. -/
def EvalError.OfCall (name : String) : EvalError → Prop
  | .functionFailed _ column _ | .arityMismatch column _ _ _ => column = name
  | _ => False

theorem EvalError.OfCall.unique {error : EvalError} {name other : String}
    (h : error.OfCall name) (ho : error.OfCall other) : name = other := by
  cases error with
  | functionFailed | arityMismatch => exact h.symm.trans ho
  | _ => exact h.elim

/-- **The function keeps rows**: of columns with one number of rows it makes a column with that
number, if it makes any. -/
def ColumnFunction.KeepsRows (function : ColumnFunction) : Prop :=
  ∀ arguments rows output,
    (∀ argument ∈ arguments, argument.WellFormed ∧ argument.length = rows) →
      function arguments = .ok output → output.length = rows

namespace View

/-- **The errors that a view reports** when it is asked for a column, by a resolver that may have
been asked before and in whatever mood, or is narrowed or copied. -/
inductive Reports (view : View) (error : EvalError) : Prop where
  | request {answers : List (Run Column)} {resolver : Resolver} {moody : View}
      (ha : view.Asked answers resolver) (hw : view.Wavers moody) (name : String)
      (h : (moody.request name resolver).1.outcome = .error (.error error)) : Reports view error
  | filter (predicate : Predicate)
      (h : (view.filter predicate).outcome = .error (.error error)) : Reports view error
  | extract (h : view.extract.outcome = .error (.error error)) : Reports view error

section Calls

variable {view : View} {name label : String} {error : EvalError}

theorem Invariant.reports_of_evaluate (h : view.Invariant)
    (he : (view.evaluate name).outcome = .error (.error error)) : view.Reports error :=
  .request .fresh h.wavers_self name he

/-! ### Where an error of a function comes from -/

theorem Outlived.meaning_or_refused {stuck : List String} {answer : Run Column × Resolver}
    (h : view.Outlived name stuck answer) (ho : answer.1.outcome = .error (.error error)) :
    view.meaning name = .error (.error error) ∨
      view.Refused (view.maxDepth - stuck.length) stuck name error := by
  cases h with
  | ok => cases ho
  | error _ _ he =>
      cases ho
      exact he
  | fault => cases ho

theorem Refused.not_ofCall {room : Nat} {path : List String}
    (h : view.Refused room path name error) : ¬ error.OfCall label := by
  cases h with
  | tooDeep => exact id
  | cyclic => exact id

theorem Invariant.exists_callFails_of_meaning (h : view.Invariant) (hc : error.OfCall label)
    (hm : view.meaning name = .error (.error error)) : ∃ needed, view.CallFails needed error := by
  rcases h.exists_callFails hm with ⟨rfl, -⟩ | hfails
  · exact hc.elim
  · exact hfails

theorem Invariant.exists_callFails_of_narrowed (h : view.Invariant) (hc : error.OfCall label)
    {predicate : Predicate} (hn : view.narrowed predicate = .error (.error error)) :
    ∃ needed, view.CallFails needed error := by
  rcases Outcome.bind_eq_error.mp hn with hs | ⟨bits, hs, -⟩
  · rcases Predicate.evaluate_eq_error hs with ⟨column, -, hm⟩ | ⟨_, _, _, rfl⟩
    · exact h.exists_callFails_of_meaning hc hm
    · exact hc.elim
  · obtain ⟨mask, hmask, -⟩ := h.narrowed_of_selected hs
    cases hmask.symm.trans hn

theorem Invariant.exists_callFails_of_extracted (h : view.Invariant) (hc : error.OfCall label)
    (he : view.extracted = .error (.error error)) : ∃ needed, view.CallFails needed error := by
  obtain ⟨table, column, -, hcopy⟩ := Outcome.foldlM_eq_error he
  rcases Outcome.bind_eq_error.mp hcopy with hm | ⟨found, -, ha⟩
  · exact h.exists_callFails_of_meaning hc hm
  · rw [Outcome.ofExcept_eq_error, Outcome.exceptMapError_eq_error] at ha
    obtain ⟨cause, -, rfl⟩ := ha
    exact hc.elim

/-- **An error of a function** comes from a failing call. -/
theorem Reachable.exists_callFails (h : view.Reachable) (hr : view.Reports error)
    (hc : error.OfCall label) : ∃ needed, view.CallFails needed error := by
  have hi := h.invariant
  cases hr with
  | request ha hw name ho =>
      have hrequest := hw.outlived_request hi (ha.lasting hi).1 name
      rcases hrequest.meaning_or_refused ho with hm | hrefused
      · exact hi.exists_callFails_of_meaning hc hm
      · exact absurd hc hrefused.not_ofCall
  | filter predicate ho =>
      rw [filter] at ho
      split at ho
      next =>
        cases ho
        exact hc.elim
      next =>
        have hn := Outcome.map_eq_error.mp ho
        rcases (hi.agrees_narrow predicate).run with hm | ⟨refusal, hr, _, hrefused⟩
        · exact hi.exists_callFails_of_narrowed hc (hm.symm.trans hn)
        · cases hr.symm.trans hn
          exact absurd hc hrefused.not_ofCall
  | extract ho =>
      rcases hi.extract_eq with hm | ⟨refusal, hr, _, hrefused⟩
      · exact hi.exists_callFails_of_extracted hc (hm.symm.trans ho)
      · cases hr.symm.trans ho
        exact absurd hc hrefused.not_ofCall

/-! ### Calls for one virtual column -/

variable {column : VirtualColumn} {function : ColumnFunction} {arguments : List Column}

/-- An error of a call is one for its column. -/
theorem ofCall_of_applied
    (h : view.applied column function arguments = .error (.error error)) :
    error.OfCall column.name := by
  rcases Outcome.bind_eq_error.mp h with h | ⟨output, -, h⟩
  · obtain ⟨cause, -, rfl⟩ := Outcome.mapError_eq_error.mp h
    rfl
  · split at h
    · cases h
    · cases h
      rfl

theorem failure_of_applied {called : String} {failure : Failure}
    (h : view.applied column function arguments =
      .error (.error (.functionFailed called name failure))) :
    called = column.function ∧ function arguments = .error (.error failure) := by
  rcases Outcome.bind_eq_error.mp h with h | ⟨output, -, h⟩
  · obtain ⟨cause, hcause, he⟩ := Outcome.mapError_eq_error.mp h
    cases he
    exact ⟨rfl, hcause⟩
  · split at h
    · cases h
    · cases h

theorem length_of_applied {called : String} {expected actual : Nat}
    (h : view.applied column function arguments =
      .error (.error (.arityMismatch name called expected actual))) :
    ∃ output, function arguments = .ok output ∧ output.length ≠ view.visibleCount := by
  rcases Outcome.bind_eq_error.mp h with h | ⟨output, ho, h⟩
  · obtain ⟨cause, -, he⟩ := Outcome.mapError_eq_error.mp h
    cases he
  · split at h
    · cases h
    next hl => exact ⟨output, Outcome.mapError_eq_ok.mp ho, hl⟩

/-- **What is reported for a virtual column** is what its call ends with, on what its sources
mean. -/
theorem Reachable.exists_applied (h : view.Reachable) (hr : view.Reports error)
    (he : error.OfCall name) (hc : view.virtualColumn? name = some column)
    (hf : view.functions.get? column.function = some function) :
    ∃ arguments, column.sources.mapM view.meaning = .ok arguments ∧
      view.applied column function arguments = .error (.error error) := by
  obtain ⟨needed, other, applied, arguments, ho, hg, ha, hfails⟩ := h.exists_callFails hr he
  obtain rfl : other.name = needed := (h.invariant.virtualColumn?_eq_some_iff.mp ho).2
  obtain rfl : name = other.name := he.unique (ofCall_of_applied hfails)
  obtain rfl := Option.some.inj (ho.symm.trans hc)
  obtain rfl := Option.some.inj (hg.symm.trans hf)
  exact ⟨arguments, ha, hfails⟩

/-- What the sources of a virtual column mean are columns with a row for every visible row. -/
theorem Invariant.rows_of_arguments (h : view.Invariant) {sources : List String}
    (ha : sources.mapM view.meaning = .ok arguments) :
    ∀ argument ∈ arguments, argument.WellFormed ∧ argument.length = view.visibleCount := by
  intro argument hm
  obtain ⟨source, -, hsource⟩ := Outcome.exists_of_mem_mapM ha hm
  exact h.wellFormed_of_meaning hsource

/-- **A failure that is reported** for a virtual column is that of its function, applied to what
its sources mean. -/
theorem Reachable.exists_failure (h : view.Reachable)
    (hc : view.virtualColumn? name = some column)
    (hf : view.functions.get? column.function = some function) {called : String}
    {failure : Failure} (hr : view.Reports (.functionFailed called name failure)) :
    called = column.function ∧ ∃ arguments, column.sources.mapM view.meaning = .ok arguments ∧
      function arguments = .error (.error failure) := by
  obtain ⟨arguments, ha, hfails⟩ := h.exists_applied hr rfl hc hf
  obtain ⟨hcalled, hfailure⟩ := failure_of_applied hfails
  exact ⟨hcalled, arguments, ha, hfailure⟩

/-- **A function that keeps rows** is never reported for the length of its column. -/
theorem Reachable.not_reports_arity (h : view.Reachable)
    (hc : view.virtualColumn? name = some column)
    (hf : view.functions.get? column.function = some function) (hk : function.KeepsRows)
    (called : String) (expected actual : Nat) :
    ¬ view.Reports (.arityMismatch name called expected actual) := by
  intro hr
  obtain ⟨arguments, ha, hfails⟩ := h.exists_applied hr rfl hc hf
  obtain ⟨output, ho, hl⟩ := length_of_applied hfails
  exact hl (hk arguments view.visibleCount output (h.invariant.rows_of_arguments ha) ho)

end Calls

end View

end RowSieve

import RowSieve.Proofs.View.Reachable

/-!
# What requests are answered with

A view that can be reached is asked for columns, narrowed and copied.

* `View.Reachable.evaluate_eq_meaning`: a column is what it means, unless a chain of virtual columns
  is longer than the limit of depth.
* `View.Reachable.errors_allowed`: no request ends in a circle or at an unknown function, nor at a
  column other than those asked for.
-/

namespace RowSieve

/-- The error is neither a circle nor an unknown function, and a column that it calls unknown is one
of those given. -/
def EvalError.Allowed (unknown : String → Prop) : EvalError → Prop
  | .cyclicDefinition _ | .unknownFunction _ => False
  | .data (.unknownColumn name) => unknown name
  | _ => True

theorem EvalError.Allowed.mono {error : EvalError} {unknown missing : String → Prop}
    (h : error.Allowed unknown) (hm : ∀ name, unknown name → missing name) :
    error.Allowed missing := by
  cases error with
  | data cause =>
      cases cause with
      | unknownColumn name => exact hm name h
      | _ => exact trivial
  | cyclicDefinition path => exact h
  | unknownFunction name => exact h
  | _ => exact trivial

namespace View

/-! ### Columns -/

theorem refused_of_fresh {view : View} {name : String} {error : EvalError}
    (h : view.Refused view.maxDepth [] name error) :
    ∃ chain column, error = .definitionTooDeep column view.maxDepth ∧
      view.VirtualChain (name :: chain) ∧ chain.length = view.maxDepth := by
  cases h with
  | tooDeep hc _ hr => exact ⟨_, _, rfl, hc, hr⟩
  | cyclic hp => cases hp

/-- Where there is room for all virtual columns, nothing is refused. -/
theorem Invariant.not_refused {view : View} (h : view.Invariant)
    (hroom : view.virtuals.length ≤ view.maxDepth) {name : String} {error : EvalError} :
    ¬ view.Refused view.maxDepth [] name error := by
  intro hr
  obtain ⟨chain, _, -, hc, hl⟩ := refused_of_fresh hr
  have hlong := h.length_le_of_virtualChain hc
  rw [List.length_cons, hl] at hlong
  exact absurd (Nat.le_trans hlong hroom) (Nat.not_succ_le_self _)

theorem Invariant.evaluate_eq {view : View} (h : view.Invariant) (name : String) :
    (view.evaluate name).outcome = view.meaning name ∨
      ∃ error, (view.evaluate name).outcome = .error (.error error) ∧
        view.Refused view.maxDepth [] name error :=
  (h.agrees_resolve name).run

theorem Invariant.evaluate_of_room {view : View} (h : view.Invariant)
    (hroom : view.virtuals.length ≤ view.maxDepth) (name : String) :
    (view.evaluate name).outcome = view.meaning name := by
  rcases h.evaluate_eq name with hm | ⟨error, -, hr⟩
  · exact hm
  · exact absurd hr (h.not_refused hroom)

/-- A column that means something is answered, unless it lies too deep. -/
theorem Invariant.evaluate_of_meaning {view : View} (h : view.Invariant) {name : String}
    {column : Column} (hm : view.meaning name = .ok column) :
    (view.evaluate name).outcome = .ok column ∨ ∃ deepest,
      (view.evaluate name).outcome =
        .error (.error (.definitionTooDeep deepest view.maxDepth)) := by
  rcases h.evaluate_eq name with he | ⟨error, he, hr⟩
  · exact .inl (he.trans hm)
  · obtain ⟨-, deepest, rfl, -⟩ := refused_of_fresh hr
    exact .inr ⟨deepest, he⟩

theorem Invariant.meaning_of_evaluate {view : View} (h : view.Invariant) {name : String}
    {column : Column} (he : (view.evaluate name).outcome = .ok column) :
    view.meaning name = .ok column := by
  rcases h.evaluate_eq name with hm | ⟨error, hr, -⟩
  · rw [← hm, he]
  · cases hr.symm.trans he

/-- **A column is what it means**, if no chain of virtual columns from it is longer than the limit of
depth; and whatever the limit, an answer is what the column means, one row for every visible row.
The meaning is all that follows the rule `View.meaningFrom`. -/
theorem Reachable.evaluate_eq_meaning {view : View} (h : view.Reachable) :
    (∀ meaning, (∀ name, meaning name = view.meaningFrom meaning name) ↔ meaning = view.meaning) ∧
      ∀ name,
        ((∀ chain, view.VirtualChain (name :: chain) → (name :: chain).length ≤ view.maxDepth) →
          (view.evaluate name).outcome = view.meaning name) ∧
        ∀ column, (view.evaluate name).outcome = .ok column →
          view.meaning name = .ok column ∧ column.length = view.visibleCount := by
  have hi := h.invariant
  refine ⟨fun meaning => ⟨fun hm => funext (hi.meaning_unique hm), fun hm => hm ▸ hi.meaning_eq⟩,
    fun name => ⟨fun hc => ?_, fun column ho => ?_⟩⟩
  · rcases hi.evaluate_eq name with hm | ⟨error, -, hr⟩
    · exact hm
    · obtain ⟨chain, _, -, hchain, hl⟩ := refused_of_fresh hr
      have := hc chain hchain
      rw [List.length_cons, hl] at this
      exact absurd this (Nat.not_succ_le_self _)
  · rcases hi.evaluate_eq name with hm | ⟨error, he, -⟩
    · rw [hm] at ho
      exact ⟨ho, (hi.wellFormed_of_meaning ho).2⟩
    · cases he.symm.trans ho

/-- The limit of two is just enough for the lengths of the capitals of the visible texts. -/
theorem evaluate_capitals :
    capitals.Reachable ∧ (capitals.evaluate "length").outcome = capitals.meaning "length" ∧
      ∃ column, capitals.meaning "length" = .ok column ∧ column.same (.ofInts #[2, 2]) = true := by
  have heq := (reachable_capitals.evaluate_eq_meaning.2 "length").1 fun chain hc =>
    reachable_capitals.invariant.length_le_of_virtualChain hc
  have hsame : (capitals.meaning "length").toOption.map (·.same (.ofInts #[2, 2])) = some true := by
    decide +kernel
  refine ⟨reachable_capitals, heq, ?_⟩
  cases hm : capitals.meaning "length" with
  | ok column =>
      rw [hm] at hsame
      exact ⟨column, rfl, Option.some.inj hsame⟩
  | error cause =>
      rw [hm] at hsame
      cases hsame

/-! ### Copies -/

/-- The table of all columns of the view, by their meanings. -/
def extracted (view : View) : Outcome EvalError Table :=
  view.columnNames.foldlM (fun table name => do
    let column ← view.meaning name
    Outcome.ofExcept ((table.addColumn name column).mapError .data)) .empty

theorem Invariant.extract_eq {view : View} (h : view.Invariant) :
    view.extract.outcome = view.extracted ∨
      ∃ error, view.extract.outcome = .error (.error error) ∧
        ∃ name, view.Refused view.maxDepth [] name error := by
  have hcopy : ∀ table, ∀ name ∈ view.columnNames, view.Agrees [] (view.copyColumn table name)
      (do
        let column ← view.meaning name
        Outcome.ofExcept ((table.addColumn name column).mapError .data))
      fun error => ∃ name, view.Refused view.maxDepth [] name error := by
    intro table name _
    refine Agrees.bind ?_ fun column _ => agrees_settle [] _
    exact (h.agrees_resolve name).mono fun error hr => ⟨name, hr⟩
  exact (Agrees.foldlM hcopy .empty).run

/-! ### Errors -/

theorem allowed_of_refused {view : View} {name : String} {error : EvalError}
    {unknown : String → Prop} (h : view.Refused view.maxDepth [] name error) :
    error.Allowed unknown := by
  obtain ⟨_, _, rfl, -, -⟩ := refused_of_fresh h
  exact trivial

theorem Invariant.allowed_of_meaning {view : View} (h : view.Invariant) {name : String}
    {error : EvalError} (hm : view.meaning name = .error (.error error)) :
    error.Allowed fun missing => missing = name ∧ missing ∉ view.columnNames := by
  rcases h.meaning_eq_error hm with ⟨rfl, hn⟩ | ⟨_, _, ⟨_, rfl⟩ | ⟨_, _, rfl⟩⟩
  · exact ⟨rfl, hn⟩
  · exact trivial
  · exact trivial

theorem Invariant.allowed_of_narrowed {view : View} (h : view.Invariant) {predicate : Predicate}
    {error : EvalError} (hn : view.narrowed predicate = .error (.error error)) :
    error.Allowed fun missing => missing ∈ predicate.columns ∧ missing ∉ view.columnNames := by
  rcases Outcome.bind_eq_error.mp hn with hs | ⟨bits, hs, hw⟩
  · rcases Predicate.evaluate_eq_error hs with ⟨name, hc, hm⟩ | ⟨_, _, _, rfl⟩
    · refine (h.allowed_of_meaning hm).mono ?_
      rintro missing ⟨rfl, hmissing⟩
      exact ⟨hc, hmissing⟩
    · exact trivial
  · obtain ⟨mask, hmask, -⟩ := h.narrowed_of_selected hs
    cases hmask.symm.trans hn

theorem Invariant.allowed_of_extracted {view : View} (h : view.Invariant) {error : EvalError}
    (he : view.extracted = .error (.error error)) : error.Allowed fun _ => False := by
  obtain ⟨table, name, hn, hcopy⟩ := Outcome.foldlM_eq_error he
  rcases Outcome.bind_eq_error.mp hcopy with hm | ⟨column, -, ha⟩
  · refine (h.allowed_of_meaning hm).mono ?_
    rintro missing ⟨rfl, hmissing⟩
    exact hmissing hn
  · rw [Outcome.ofExcept_eq_error, Outcome.exceptMapError_eq_error] at ha
    obtain ⟨cause, ha, rfl⟩ := ha
    rcases Table.addColumn_eq_error ha with rfl | ⟨_, _, _, rfl⟩
    · exact trivial
    · exact trivial

theorem Reachable.errors_allowed {view : View} (h : view.Reachable) :
    view.Invariant ∧
      (∀ name error, (view.evaluate name).outcome = .error (.error error) →
        error.Allowed fun missing => missing = name ∧ missing ∉ view.columnNames) ∧
      (∀ predicate error, (view.filter predicate).outcome = .error (.error error) →
        error.Allowed fun missing => missing ∈ predicate.columns ∧ missing ∉ view.columnNames) ∧
      ∀ error, view.extract.outcome = .error (.error error) → error.Allowed fun _ => False := by
  have hi := h.invariant
  refine ⟨hi, fun name error he => ?_, fun predicate error he => ?_, fun error he => ?_⟩
  · rcases hi.evaluate_eq name with hm | ⟨refusal, hr, hrefused⟩
    · exact hi.allowed_of_meaning (hm.symm.trans he)
    · cases hr.symm.trans he
      exact allowed_of_refused hrefused
  · rw [filter] at he
    split at he
    next missing hf =>
      cases he
      have hc := List.find?_some hf
      refine ⟨List.mem_of_find?_eq_some hf, fun hn => ?_⟩
      rw [hi.contains_iff.mpr hn] at hc
      cases hc
    next =>
      have hn := Outcome.map_eq_error.mp he
      rcases (hi.agrees_narrow predicate).run with hm | ⟨refusal, hr, name, hrefused⟩
      · exact hi.allowed_of_narrowed (hm.symm.trans hn)
      · cases hr.symm.trans hn
        exact allowed_of_refused hrefused
  · rcases hi.extract_eq with hm | ⟨refusal, hr, name, hrefused⟩
    · exact hi.allowed_of_extracted (hm.symm.trans he)
    · cases hr.symm.trans he
      exact allowed_of_refused hrefused

/-- A column that is not there is unknown under its own name. -/
theorem errors_capitals :
    capitals.Reachable ∧
      (capitals.evaluate "width").outcome = .error (.error (.data (.unknownColumn "width"))) ∧
        "width" ∉ capitals.columnNames := by
  have hi := reachable_capitals.invariant
  have hm : (capitals.evaluate "width").outcome = capitals.meaning "width" := by
    rcases hi.evaluate_eq "width" with hm | ⟨error, -, hr⟩
    · exact hm
    · obtain ⟨chain, _, -, hc, hl⟩ := refused_of_fresh hr
      exact absurd (hi.length_le_of_virtualChain hc) (by rw [List.length_cons, hl]; decide)
  have he : (capitals.evaluate "width").outcome =
      .error (.error (.data (.unknownColumn "width"))) := hm.trans rfl
  exact ⟨reachable_capitals, he, (reachable_capitals.errors_allowed.2.1 "width" _ he).2⟩

end View

end RowSieve

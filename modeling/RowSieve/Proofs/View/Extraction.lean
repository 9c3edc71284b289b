import RowSieve.Proofs.View.Stored
import RowSieve.Proofs.View.Work

/-!
# Copies of views

The columns of a view are copied one after another by a single resolver, in an order that has the
sources first.  So whatever a column is computed from is remembered by then, and no limit of depth
stands in the way.

* `View.Invariant.extract_eq_extracted`: copying gives what the columns mean.
* `View.Invariant.extract_eq_error_iff`: it fails at the first virtual column that means nothing.
* `View.Reachable.extract_copies`: why copying fails, and what the copy is otherwise.
-/

namespace RowSieve.View

open Resolve

/-! ### Copying meets no limit -/

section Copying

variable {view : View}

theorem fills_copyColumn (table : Table) (name : String) :
    view.Fills (fun _ => True) (view.copyColumn table name) [name] := by
  refine Fills.followed ?_ fun column => fills_settle [] _
  intro least resolver hr
  exact fills_resolveAt (fun _ _ _ _ => trivial) _ resolver.stuck trivial least resolver hr

/-- A column is copied as it is meant, once its sources are. -/
theorem Invariant.answers_copyColumn (h : view.Invariant) (hroom : 0 < view.maxDepth)
    (table : Table) {name : String} {resolver : Resolver} (hr : view.MemoSound resolver)
    (hs : resolver.stuck = [])
    (hk : ∀ source, view.DirectSource name source → resolver.Knows source) :
    view.Answers [] (view.meaning name >>= fun column =>
        Outcome.ofExcept ((table.addColumn name column).mapError .data))
      (fun _ => False) (view.copyColumn table name resolver) := by
  refine (h.answers_resolve_of_knows hroom hr hs hk).bind ?_
  intro column middle _ hmiddle hstuck _
  exact agrees_settle [] _ middle hmiddle hstuck

/-- **Copying columns with the sources first** gives what they mean. -/
theorem Invariant.answers_copies (h : view.Invariant) (hroom : 0 < view.maxDepth)
    {done names : List String} (hsplit : view.columnNames = done ++ names) (table : Table)
    {resolver : Resolver} (hr : view.Consistent resolver) (hs : resolver.stuck = [])
    (hk : ∀ name ∈ done, resolver.Knows name) :
    view.Answers []
      (names.foldlM (fun table name => view.meaning name >>= fun column =>
        Outcome.ofExcept ((table.addColumn name column).mapError .data)) table)
      (fun _ => False) (names.foldlM view.copyColumn table resolver) := by
  induction names generalizing done table resolver with
  | nil => exact agrees_pure table resolver hr.sound hs
  | cons name names ih =>
      rw [List.foldlM_cons, List.foldlM_cons]
      refine Answers.bind (h.answers_copyColumn hroom table hr.sound hs ?_) ?_
      · intro source hd
        exact hk source (h.sourcesFirst_columnNames done name names hsplit source hd)
      · intro next middle hok hmiddle hstuck _
        have hfilled := fills_copyColumn table name (fun other => other ∈ done) resolver
          ⟨hr.closed, hk, fun _ _ => trivial⟩
        rw [hok] at hfilled
        cases hfilled with
        | ok hremembers =>
            have hnext : view.columnNames = (done ++ [name]) ++ names := by
              rw [hsplit, List.append_assoc, List.singleton_append]
            refine ih hnext next ⟨hmiddle, hremembers.closed⟩ hstuck ?_
            intro other ho
            exact hremembers.least other (List.mem_append.mp ho).symm

/-- **Copying gives what the columns mean.** -/
theorem Invariant.extract_eq_extracted (h : view.Invariant) (hroom : 0 < view.maxDepth) :
    view.extract.outcome = view.extracted := by
  have ha := h.answers_copies hroom (List.nil_append _).symm Table.empty view.consistent_fresh rfl
    fun _ hn => nomatch hn
  rcases ha.run with hm | ⟨_, -, hr⟩
  · exact hm
  · exact hr.elim

end Copying

/-! ### Where copying fails -/

/-- **The first virtual column that means nothing**, in the order of the declarations, and why. -/
def FirstFailure (view : View) (column : VirtualColumn) (cause : Abort EvalError) : Prop :=
  ∃ before after, view.virtuals = before ++ column :: after ∧
    (∀ earlier ∈ before, ∃ found, view.meaning earlier.name = .ok found) ∧
      view.meaning column.name = .error cause

/-- An error of a function that is called for this column. -/
inductive OwnFailure (view : View) (column : VirtualColumn) : EvalError → Prop where
  | failed (failure : Failure) :
      OwnFailure view column (.functionFailed column.function column.name failure)
  | arity (actual : Nat) :
      OwnFailure view column (.arityMismatch column.name column.function view.visibleCount actual)

section Failing

variable {view : View}

/-- **The next column fits into the table** of those before it. -/
theorem Invariant.addColumn_meaning (h : view.Invariant) {done : List (String × Column)}
    {name : String} {names : List String}
    (hsplit : view.columnNames = done.map (·.1) ++ name :: names)
    (hd : ∀ entry ∈ done, entry.2.length = view.visibleCount) {column : Column}
    (hm : view.meaning name = .ok column) :
    (Table.mk done).addColumn name column = .ok ⟨done ++ [(name, column)]⟩ := by
  have hfresh : name ∉ (Table.mk done).names := by
    have hnodup := h.names
    rw [hsplit] at hnodup
    intro hn
    exact (List.nodup_append.mp hnodup).2.2 name hn name List.mem_cons_self rfl
  have hrows : done ≠ [] → column.length = (Table.mk done).rowCount := by
    intro hne
    cases done with
    | nil => exact absurd rfl hne
    | cons first rest =>
        exact (h.wellFormed_of_meaning hm).2.trans (hd first List.mem_cons_self).symm
  exact Table.addColumn_of_fresh hfresh hrows

/-- Columns that mean something fit into one table. -/
theorem Invariant.foldlM_meaning (h : view.Invariant) {done : List (String × Column)}
    {names : List String} (hsplit : view.columnNames = done.map (·.1) ++ names)
    (hd : ∀ entry ∈ done, entry.2.length = view.visibleCount) :
    names.foldlM (fun table name => view.meaning name >>= fun column =>
        Outcome.ofExcept ((table.addColumn name column).mapError .data)) (Table.mk done) =
      (fun found => ⟨done ++ found⟩) <$>
        names.mapM fun name => (name, ·) <$> view.meaning name := by
  induction names generalizing done with
  | nil => simp [pure, Except.pure, Functor.map, Except.map]
  | cons name names ih =>
      rw [List.foldlM_cons, List.mapM_cons]
      cases hm : view.meaning name with
      | error cause => rfl
      | ok column =>
          have hnext : view.columnNames = (done ++ [(name, column)]).map (·.1) ++ names := by
            rw [hsplit, List.map_append, List.append_assoc]
            rfl
          have hlengths : ∀ entry ∈ done ++ [(name, column)],
              entry.2.length = view.visibleCount := by
            intro entry he
            rcases List.mem_append.mp he with he | he
            · exact hd entry he
            · rw [List.mem_singleton.mp he]
              exact (h.wellFormed_of_meaning hm).2
          show (Outcome.ofExcept
            (((Table.mk done).addColumn name column).mapError EvalError.data) >>=
              fun next => names.foldlM _ next) = _
          rw [h.addColumn_meaning hsplit hd hm]
          refine (ih hnext hlengths).trans ?_
          cases names.mapM fun name => (name, ·) <$> view.meaning name with
          | error cause => rfl
          | ok found =>
              show Except.ok (Table.mk ((done ++ [(name, column)]) ++ found)) = _
              rw [List.append_assoc]
              rfl

theorem Invariant.extracted_eq (h : view.Invariant) :
    view.extracted =
      Table.mk <$> view.columnNames.mapM fun name => (name, ·) <$> view.meaning name :=
  h.foldlM_meaning (show view.columnNames = ([] : List (String × Column)).map (·.1) ++ _ from rfl)
    fun _ he => nomatch he

/-- **Copying fails at the first virtual column that means nothing.** -/
theorem Invariant.extract_eq_error_iff (h : view.Invariant) (hroom : 0 < view.maxDepth)
    {cause : Abort EvalError} :
    view.extract.outcome = .error cause ↔ ∃ column, view.FirstFailure column cause := by
  have hstored : ∃ found,
      (view.table.names.mapM fun name => (name, ·) <$> view.meaning name) = .ok found := by
    cases hf : view.table.names.mapM fun name => (name, ·) <$> view.meaning name with
    | ok found => exact ⟨found, rfl⟩
    | error broken =>
        obtain ⟨name, hn, he⟩ := Outcome.mapM_eq_error hf
        obtain ⟨stored, -, hm⟩ := h.exists_meaning_of_stored hn
        cases hm.symm.trans (Outcome.map_eq_error.mp he)
  obtain ⟨found, hfound⟩ := hstored
  rw [h.extract_eq_extracted hroom, h.extracted_eq, Outcome.map_eq_error, columnNames,
    List.mapM_append, hfound, List.mapM_map]
  have hrest : ∀ names : Outcome EvalError (List (String × Column)),
      (Except.ok found >>= fun stored => names >>= fun computed => pure (stored ++ computed)) =
        .error cause ↔ names = .error cause := by
    rintro (broken | computed) <;> simp [bind, Except.bind, pure, Except.pure]
  rw [hrest, Outcome.mapM_eq_error_iff]
  simp only [Outcome.map_eq_error, Function.comp, Outcome.map_eq_ok]
  constructor
  · rintro ⟨before, column, after, hsplit, hbefore, hm⟩
    refine ⟨column, before, after, hsplit, ?_, hm⟩
    intro earlier he
    obtain ⟨_, found, hf, -⟩ := hbefore earlier he
    exact ⟨found, hf⟩
  · rintro ⟨column, before, after, hsplit, hbefore, hm⟩
    refine ⟨before, column, after, hsplit, ?_, hm⟩
    intro earlier he
    obtain ⟨found, hf⟩ := hbefore earlier he
    exact ⟨_, found, hf, rfl⟩

/-- **What the first failing column fails with** is its own: everything that it needs means
something. -/
theorem FirstFailure.ownFailure (h : view.Invariant) {column : VirtualColumn} {error : EvalError}
    (hf : view.FirstFailure column (.error error)) : view.OwnFailure column error := by
  obtain ⟨before, after, hsplit, hbefore, hm⟩ := hf
  have hmem : column ∈ view.virtuals := by simp [hsplit]
  have hv := h.virtualColumn?_eq_some_iff.mpr ⟨hmem, rfl⟩
  have hnames : view.columnNames =
      (view.table.names ++ before.map (·.name)) ++ column.name :: after.map (·.name) := by
    rw [columnNames, hsplit, List.map_append, List.map_cons, List.append_assoc]
  rw [h.meaning_of_virtual hv, combined] at hm
  split at hm
  next hf =>
    have hknown := h.functions column hmem
    rw [Registry.contains, hf] at hknown
    cases hknown
  next function _ =>
    rcases Outcome.bind_eq_error.mp hm with hm | ⟨arguments, -, hm⟩
    · obtain ⟨source, hs, hsource⟩ := Outcome.mapM_eq_error hm
      have hplace := h.sourcesFirst_columnNames _ _ _ hnames source ⟨column, hv, hs⟩
      rcases List.mem_append.mp hplace with hstored | hearlier
      · obtain ⟨stored, -, hm⟩ := h.exists_meaning_of_stored hstored
        cases hm.symm.trans hsource
      · obtain ⟨earlier, he, rfl⟩ := List.mem_map.mp hearlier
        obtain ⟨found, hm⟩ := hbefore earlier he
        cases hm.symm.trans hsource
    · rcases Invariant.appliedOver_eq_error hm with ⟨failure, rfl⟩ | ⟨actual, rfl⟩
      · exact .failed failure
      · exact .arity actual

/-- Among the virtual columns that mean nothing there is a first. -/
theorem exists_firstFailure {column : VirtualColumn} {cause : Abort EvalError}
    (hc : column ∈ view.virtuals) (hm : view.meaning column.name = .error cause) :
    ∃ first cause, view.FirstFailure first cause := by
  cases hf : view.virtuals.mapM fun column => view.meaning column.name with
  | error cause =>
      obtain ⟨before, first, after, h⟩ := Outcome.mapM_eq_error_iff.mp hf
      exact ⟨first, cause, before, after, h⟩
  | ok columns =>
      obtain ⟨found, hfound⟩ := Outcome.exists_of_mapM hf hc
      cases hm.symm.trans hfound

end Failing

/-! ### The copy -/

/-- **The copy of a view**: its columns under their names, each as it is meant, and one row for
every visible row. -/
structure Copied (view : View) (table : Table) : Prop where
  names : table.names = view.columnNames
  rowCount : table.rowCount = view.visibleCount
  meanings : ∀ entry ∈ table.columns, view.meaning entry.1 = .ok entry.2

section Copy

variable {view : View} {table : Table}

theorem Invariant.copied (h : view.Invariant) (he : view.extracted = .ok table) :
    view.Copied table := by
  rw [h.extracted_eq] at he
  obtain ⟨entries, hentries, rfl⟩ := Outcome.map_eq_ok.mp he
  have hmeanings : ∀ entry ∈ entries, view.meaning entry.1 = .ok entry.2 := by
    intro entry hmem
    obtain ⟨name, -, hname⟩ := Outcome.exists_of_mem_mapM hentries hmem
    obtain ⟨column, hm, rfl⟩ := Outcome.map_eq_ok.mp hname
    exact hm
  have hnames : view.columnNames = entries.map (·.1) := by
    rw [← List.forall₂_eq_eq_eq, List.forall₂_map_right_iff]
    refine (Outcome.mapM_eq_ok.mp hentries).imp ?_
    intro name entry hname
    obtain ⟨column, -, rfl⟩ := Outcome.map_eq_ok.mp hname
    rfl
  refine ⟨hnames.symm, ?_, hmeanings⟩
  cases entries with
  | nil =>
      -- a table without columns has no rows to show
      have hstored : view.table.columns = [] :=
        List.map_eq_nil_iff.mp (List.append_eq_nil_iff.mp hnames).1
      rw [h.visibleCount_eq, h.rows_eq_nil hstored]
      rfl
  | cons first rest =>
      exact (h.wellFormed_of_meaning (hmeanings first List.mem_cons_self)).2

theorem Copied.wellFormed (hc : view.Copied table) (h : view.Invariant) : table.WellFormed where
  columns := fun entry he => (h.wellFormed_of_meaning (hc.meanings entry he)).1
  lengths := fun entry he => by
    rw [hc.rowCount]
    exact (h.wellFormed_of_meaning (hc.meanings entry he)).2
  names := hc.names ▸ h.names

/-- A column that means something is a column of the view. -/
theorem Invariant.mem_columnNames_of_meaning (h : view.Invariant) {name : String} {column : Column}
    (hm : view.meaning name = .ok column) : name ∈ view.columnNames := by
  rw [h.meaning_eq, meaningFrom] at hm
  split at hm
  next =>
    obtain ⟨stored, hs, -⟩ := h.gathered_eq_ok hm
    exact List.mem_append_left _ (List.mem_map_of_mem (Table.mem_of_get? hs))
  next declared hv =>
    obtain ⟨hmem, rfl⟩ := h.virtualColumn?_eq_some_iff.mp hv
    exact List.mem_append_right _ (List.mem_map_of_mem hmem)

theorem Copied.get?_eq_some (hc : view.Copied table) (h : view.Invariant) {name : String}
    {column : Column} (hm : view.meaning name = .ok column) : table.get? name = some column := by
  have hn := h.mem_columnNames_of_meaning hm
  rw [← hc.names] at hn
  obtain ⟨entry, he, rfl⟩ := List.mem_map.mp hn
  obtain rfl := Except.ok.inj (hm.symm.trans (hc.meanings entry he))
  exact (hc.wellFormed h).get?_eq_some_iff.mpr he

/-- A table of its own shows its columns as they are. -/
theorem evaluate_ofTable (ht : table.WellFormed) {name : String} {column : Column}
    (hg : table.get? name = some column) :
    ((ofTable table).evaluate name).outcome = .ok column := by
  have hi := invariant_ofTable ht
  have hn : (ofTable table).virtualColumn? name = none := by
    rw [hi.virtualColumn?_eq_none_iff]
    exact List.not_mem_nil
  rw [hi.evaluate_of_room (Nat.zero_le _), hi.meaning_of_not_virtual hn, hi.gathered_eq hg,
    hi.taken_rows rfl hg]

/-- **Copying calls the functions of the virtual columns**, in the order of their declarations. -/
theorem Invariant.called_extract (h : view.Invariant) (he : view.extract.outcome = .ok table) :
    view.extract.called = view.virtuals := by
  obtain ⟨order, ho, hcalled⟩ := (h.orderly_run h.walks_copies).complete table he
  obtain rfl := ho.unique (h.sourcesFirst_columnNames.postOrder h.names)
  have hstored : view.table.names.filterMap view.virtualColumn? = [] := by
    rw [List.filterMap_eq_nil_iff]
    intro name hn
    exact h.not_virtual_of_stored hn
  have hvirtual : view.virtuals.filterMap (view.virtualColumn? ∘ (·.name)) =
      view.virtuals.filterMap some := by
    refine List.filterMap_congr ?_
    intro column hc
    exact h.virtualColumn?_eq_some_iff.mpr ⟨hc, rfl⟩
  rw [show view.extract.called = _ from hcalled, columnNames, List.filterMap_append, hstored,
    List.filterMap_map, hvirtual, List.nil_append, List.filterMap_some]

/-- **Copying a view** in which there is room for one virtual column.  It fails at the first virtual
column that means nothing, with an error of that column, and never for want of room.  Otherwise it
calls every function once, and the copy shows what the view shows. -/
theorem Reachable.extract_copies (h : view.Reachable) (hroom : 0 < view.maxDepth) :
    ((∃ cause, view.extract.outcome = .error cause) ↔
        ∃ column ∈ view.virtuals, ∃ cause, view.meaning column.name = .error cause) ∧
      (∀ cause, view.extract.outcome = .error cause ↔
        ∃ column, view.FirstFailure column cause) ∧
      (∀ error, view.extract.outcome = .error (.error error) →
        (∃ column, view.FirstFailure column (.error error) ∧ view.OwnFailure column error) ∧
          ∀ column limit, error ≠ .definitionTooDeep column limit) ∧
      ∀ table, view.extract.outcome = .ok table →
        view.Copied table ∧ (view.extract.called = view.virtuals ∧ view.extract.called.Nodup) ∧
          ∀ name column, (view.evaluate name).outcome = .ok column →
            ((View.ofTable table).evaluate name).outcome = .ok column := by
  have hi := h.invariant
  refine ⟨⟨?_, ?_⟩, ?_, ?_, ?_⟩
  · rintro ⟨cause, hc⟩
    obtain ⟨column, before, after, hsplit, -, hm⟩ := (hi.extract_eq_error_iff hroom).mp hc
    exact ⟨column, by simp [hsplit], cause, hm⟩
  · rintro ⟨column, hc, cause, hm⟩
    obtain ⟨first, cause, hf⟩ := exists_firstFailure hc hm
    exact ⟨cause, (hi.extract_eq_error_iff hroom).mpr ⟨first, hf⟩⟩
  · intro cause
    exact hi.extract_eq_error_iff hroom
  · intro error he
    obtain ⟨column, hf⟩ := (hi.extract_eq_error_iff hroom).mp he
    have hown := hf.ownFailure hi
    refine ⟨⟨column, hf, hown⟩, ?_⟩
    rintro other limit rfl
    cases hown
  · intro table he
    have hc : view.Copied table := hi.copied ((hi.extract_eq_extracted hroom).symm.trans he)
    have hcalled := hi.called_extract he
    refine ⟨hc, ⟨hcalled, ?_⟩, ?_⟩
    · rw [hcalled]
      exact .of_map (·.name) (List.nodup_append.mp hi.names).2.1
    · intro name column hv
      exact evaluate_ofTable (hc.wellFormed hi)
        (hc.get?_eq_some hi (hi.meaning_of_evaluate hv))

/-- On their own the lengths lie too deep, and they are copied nevertheless. -/
theorem extract_shallow :
    shallow.Reachable ∧ 0 < shallow.maxDepth ∧
      (shallow.evaluate "length").outcome =
        .error (.error (.definitionTooDeep "capitals" 1)) ∧
      ∃ table, shallow.extract.outcome = .ok table ∧ shallow.Copied table := by
  have hroom : 0 < shallow.maxDepth := by decide
  have hcopies := reachable_shallow.extract_copies hroom
  refine ⟨reachable_shallow, hroom, evaluate_length_shallow, ?_⟩
  cases he : shallow.extract.outcome with
  | ok table => exact ⟨table, rfl, (hcopies.2.2.2 table he).1⟩
  | error cause =>
      have hmeaning : ∀ column ∈ shallow.virtuals,
          ((shallow.meaning column.name).toOption.map (·.length)) = some 2 := by
        decide +kernel
      obtain ⟨column, hc, broken, hm⟩ := hcopies.1.mp ⟨cause, he⟩
      have htwo := hmeaning column hc
      rw [hm] at htwo
      cases htwo

end Copy

end RowSieve.View

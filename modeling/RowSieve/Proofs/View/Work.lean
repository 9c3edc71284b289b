import RowSieve.Proofs.View.Selection
import RowSieve.Proofs.View.Session
import RowSieve.Proofs.View.Traversal

/-!
# No work is done twice

The journal of a run tells which stored columns were gathered and which functions were called, and
with what.  However many sources or leaves share a column, it is worked out once, after everything
that it is computed from; this also holds of a run that fails on the way.

* `View.Invariant.walks_narrow`, `View.Invariant.walks_copies`: narrowing works out the columns of
  the leaves from left to right, copying those of the view in their order.
* `View.Reachable.work_orderly`: the work of a request for a column, of narrowing and of copying.
-/

namespace RowSieve

/-- The stored column that is gathered. -/
def Event.gathered? : Event → Option String
  | .gathered column => some column
  | _ => none

/-- The virtual column whose function is about to be called. -/
def Event.called? : Event → Option VirtualColumn
  | .called column _ _ => some column
  | _ => none

namespace Run

variable {α : Type}

/-- The stored columns gathered in a run. -/
def gathered (run : Run α) : List String :=
  run.journal.filterMap Event.gathered?

/-- The virtual columns whose functions were called in a run. -/
def called (run : Run α) : List VirtualColumn :=
  run.journal.filterMap Event.called?

end Run

namespace View

/-- What a column was found to be, **by the end of these events**: a stored one was gathered, and
the function of a virtual one was called and has answered. -/
inductive Supplied (view : View) (before : List Event) : String → Column → Prop where
  | stored {name : String} {stored : Column} (hn : view.virtualColumn? name = none)
      (hs : view.table.get? name = some stored) (hg : Event.gathered name ∈ before) :
      Supplied view before name (stored.taken view.rows)
  | virtual {column : VirtualColumn} {function : ColumnFunction} {arguments : List Column}
      {output : Column} (hv : view.virtualColumn? column.name = some column)
      (hf : view.functions.get? column.function = some function)
      (hc : Event.called column view.visibleCount arguments ∈ before)
      (ho : function arguments = .ok output) (hl : output.length = view.visibleCount) :
      Supplied view before column.name output

/-- **The work of a run that needs the requested columns is in order.** -/
structure Orderly {α : Type} (view : View) (requested : List String) (run : Run α) : Prop where
  /-- No stored column is gathered twice. -/
  gatheredOnce : run.gathered.Nodup
  /-- No virtual column has its function called twice. -/
  calledOnce : (run.called.map (·.name)).Nodup
  /-- A function is called after what it is called with was found. -/
  supplied : ∀ before column rows arguments after,
    run.journal = before ++ .called column rows arguments :: after →
      List.Forall₂ (view.Supplied before) column.sources arguments
  /-- Functions are called in depth-first post-order, up to the end of the run. -/
  inOrder : ∃ order, view.PostOrder [] requested order ∧
    run.called <+: order.filterMap view.virtualColumn?
  /-- A run that succeeds goes through the whole order. -/
  complete : ∀ value, run.outcome = .ok value → ∃ order, view.PostOrder [] requested order ∧
    run.called = order.filterMap view.virtualColumn?
  /-- A run that succeeds calls the functions of the virtual columns that are needed. -/
  needed : ∀ value, run.outcome = .ok value → ∀ column, column ∈ run.called ↔
    column ∈ view.virtuals ∧
      ∃ asked ∈ requested, Relation.ReflTransGen view.DirectSource asked column.name

/-! ### The work told by a journal -/

section Journal

variable {view : View} {journal : List Event}

theorem sublist_workOf (f : Event → Option String)
    (hf : ∀ event name, f event = some name → event.worked? = some name) :
    (journal.filterMap f).Sublist (workOf journal) := by
  induction journal with
  | nil => exact List.Sublist.slnil
  | cons event journal ih =>
      cases hn : f event with
      | none =>
          rw [List.filterMap_cons_none hn, workOf, List.filterMap_cons]
          cases event.worked? with
          | none => exact ih
          | some name => exact ih.cons name
      | some name =>
          rw [List.filterMap_cons_some hn, workOf, List.filterMap_cons_some (hf event name hn)]
          exact ih.cons_cons name

theorem gathered_sublist_workOf :
    (journal.filterMap Event.gathered?).Sublist (workOf journal) := by
  refine sublist_workOf _ ?_
  rintro (_ | _ | _ | _ | _ | _) name hn <;> simp_all [Event.gathered?, Event.worked?]

theorem called_sublist_workOf :
    ((journal.filterMap Event.called?).map (·.name)).Sublist (workOf journal) := by
  rw [List.map_filterMap]
  refine sublist_workOf _ ?_
  rintro (_ | _ | _ | _ | _ | _) name hn <;> simp_all [Event.called?, Event.worked?]

/-- Of the columns worked out, the functions of the virtual ones were called. -/
theorem called_eq (hj : ∀ event ∈ journal, view.Justified event) :
    journal.filterMap Event.called? = (workOf journal).filterMap view.virtualColumn? := by
  rw [workOf, List.filterMap_filterMap]
  refine List.filterMap_congr ?_
  intro event he
  have h := hj event he
  cases event with
  | gathered name => exact h.symm
  | called column rows arguments => exact h.1.symm
  | _ => rfl

/-- **A column that was worked out** was found to be what it means. -/
theorem Invariant.supplied (h : view.Invariant) (hj : ∀ event ∈ journal, view.Justified event)
    {name : String} {column : Column} (hw : name ∈ workOf journal)
    (hm : view.meaning name = .ok column) : view.Supplied journal name column := by
  obtain ⟨event, he, hname⟩ := List.mem_filterMap.mp hw
  have hevent := hj event he
  cases event with
  | gathered other =>
      obtain rfl := Option.some.inj hname
      rw [h.meaning_of_not_virtual hevent] at hm
      obtain ⟨stored, hs, rfl⟩ := h.gathered_eq_ok hm
      exact .stored hevent hs he
  | called declared rows arguments =>
      obtain rfl := Option.some.inj hname
      obtain ⟨hv, rfl, ha⟩ := hevent
      rw [h.meaning_of_virtual hv] at hm
      obtain ⟨function, found, hf, hfound, ho, hl⟩ := combined_eq_ok.mp hm
      obtain rfl := Except.ok.inj (ha.symm.trans hfound)
      exact .virtual hv hf he ho hl
  | _ => cases hname

/-- Where the work follows a post-order, functions are called with what was found. -/
theorem Invariant.forall₂_supplied (h : view.Invariant) {requested order : List String}
    (ho : view.PostOrder [] requested order) (hw : workOf journal <+: order)
    (hj : ∀ event ∈ journal, view.Justified event) {before after : List Event}
    {column : VirtualColumn} {rows : Nat} {arguments : List Column}
    (hs : journal = before ++ .called column rows arguments :: after) :
    List.Forall₂ (view.Supplied before) column.sources arguments := by
  subst hs
  obtain ⟨rest, hrest⟩ := hw
  obtain ⟨hv, -, ha⟩ := hj (.called column rows arguments) (by simp)
  have hsplit : order = workOf before ++ column.name :: (workOf after ++ rest) := by
    rw [← hrest, workOf_append, List.append_assoc]
    rfl
  have hsources : ∀ source ∈ column.sources, source ∈ workOf before := by
    intro source hsource
    exact ho.sourcesFirst view.sourcesFirst_nil _ _ _ hsplit source ⟨column, hv, hsource⟩
  refine ((List.forall₂_and_left _ _).mpr ⟨hsources, Outcome.mapM_eq_ok.mp ha⟩).imp ?_
  rintro source argument ⟨hsource, hm⟩
  exact h.supplied (fun event he => hj event (by simp [he])) hsource hm

end Journal

/-! ### The work of a run -/

section Runs

variable {α β : Type} {view : View} {requested : List String}

theorem logged_fresh (view : View) : view.Logged [] [] .fresh where
  sound := view.memoSound_fresh
  knows := by simp [Resolver.Knows, Resolver.fresh]
  worked := rfl
  justified := fun _ he => nomatch he

/-- What a computation that walks through the needed columns leaves in the journal. -/
theorem Walks.run {action : Resolve α} (h : view.Walks action requested) {order : List String}
    (ho : view.PostOrder [] requested order) :
    workOf (action.run .fresh).1.journal <+: order ∧
      (∀ event ∈ (action.run .fresh).1.journal, view.Justified event) ∧
      ∀ value, (action.run .fresh).1.outcome = .ok value →
        workOf (action.run .fresh).1.journal = order := by
  have hw := h [] order .fresh ho view.logged_fresh
  cases hr : action .fresh with
  | ok value next =>
      rw [hr] at hw
      rw [run_of_ok hr]
      cases hw with
      | ok hl => exact ⟨hl.worked ▸ List.prefix_rfl, hl.justified, fun _ _ => hl.worked⟩
  | error cause next =>
      rw [hr] at hw
      rw [run_of_error hr]
      cases hw with
      | error hp hj => exact ⟨hp, hj, nofun⟩

theorem Invariant.mem_filterMap_virtual (h : view.Invariant) {order : List String}
    (ho : view.PostOrder [] requested order) {column : VirtualColumn} :
    column ∈ order.filterMap view.virtualColumn? ↔ column ∈ view.virtuals ∧
      ∃ asked ∈ requested, Relation.ReflTransGen view.DirectSource asked column.name := by
  rw [List.mem_filterMap, ← ho.mem_iff]
  constructor
  · rintro ⟨name, hn, hv⟩
    obtain ⟨hc, rfl⟩ := h.virtualColumn?_eq_some_iff.mp hv
    exact ⟨hc, hn⟩
  · rintro ⟨hc, hn⟩
    exact ⟨column.name, hn, h.virtualColumn?_eq_some_iff.mpr ⟨hc, rfl⟩⟩

theorem Invariant.orderly_run (h : view.Invariant) {action : Resolve α}
    (hw : view.Walks action requested) : view.Orderly requested (action.run .fresh).1 := by
  obtain ⟨order, ho⟩ := h.exists_postOrder [] requested
  obtain ⟨hp, hj, hc⟩ := hw.run ho
  have hnodup := (h.nodup_of_postOrder ho List.nodup_nil).sublist hp.sublist
  have hcalled : (action.run .fresh).1.called =
      (workOf (action.run .fresh).1.journal).filterMap view.virtualColumn? := called_eq hj
  refine ⟨hnodup.sublist gathered_sublist_workOf, hnodup.sublist called_sublist_workOf,
    ?_, ?_, ?_, ?_⟩
  · intro before column rows arguments after hs
    exact h.forall₂_supplied ho hp hj hs
  · exact ⟨order, ho, hcalled ▸ hp.filterMap view.virtualColumn?⟩
  · intro value hv
    exact ⟨order, ho, hcalled.trans (congrArg _ (hc value hv))⟩
  · intro value hv column
    rw [hcalled, hc value hv]
    exact h.mem_filterMap_virtual ho

theorem Orderly.map {run : Run α} (h : view.Orderly requested run) (f : α → β) :
    view.Orderly requested (run.map f) := by
  have hok : ∀ value, (run.map f).outcome = .ok value → ∃ other, run.outcome = .ok other := by
    intro value hv
    obtain ⟨other, ho, -⟩ := Outcome.map_eq_ok.mp hv
    exact ⟨other, ho⟩
  refine ⟨h.gatheredOnce, h.calledOnce, h.supplied, h.inOrder, ?_, ?_⟩
  · intro value hv
    obtain ⟨other, ho⟩ := hok value hv
    exact h.complete other ho
  · intro value hv
    obtain ⟨other, ho⟩ := hok value hv
    exact h.needed other ho

/-- A request that is turned down does no work. -/
theorem Invariant.orderly_failed (h : view.Invariant) (error : EvalError) :
    view.Orderly requested (Run.failed error : Run α) := by
  exact h.orderly_run (walks_fail error : view.Walks (Resolve.fail error : Resolve α) requested)

end Runs

/-! ### Requests -/

section Requests

variable {view : View}

theorem Invariant.walks_resolve (h : view.Invariant) (name : String) :
    view.Walks (view.resolve name) [name] :=
  fun done order resolver hp hl => h.walks_resolveAt _ resolver.stuck name done order resolver hp hl

theorem Invariant.walks_search (h : view.Invariant) (predicate : Predicate) :
    view.Walks (view.search predicate) (predicate.leaves.map (·.1)) := by
  rw [search]
  induction predicate with
  | leaf name test =>
      refine (h.walks_resolve name).followed ?_
      intro column
      exact walks_settle [] _
  | and left right ihl ihr | or left right ihl ihr =>
      rw [Predicate.leaves, List.map_append]
      refine ihl.bind ?_
      intro leftBits
      refine ihr.followed ?_
      intro rightBits
      exact walks_settle [] _
  | not inner ih =>
      refine ih.followed ?_
      intro bits
      exact walks_pure bits.not

/-- **Narrowing** works out the columns of the leaves, from left to right. -/
theorem Invariant.walks_narrow (h : view.Invariant) (predicate : Predicate) :
    view.Walks (view.narrow predicate) (predicate.leaves.map (·.1)) := by
  rw [narrow_eq]
  refine (h.walks_search predicate).followed ?_
  intro bits
  refine (walks_settle [] _).followed ?_
  intro wide
  exact walks_record (.derived _ _) rfl trivial (walks_pure (Mask.mk wide))

/-- **Copying** works out the columns of the view, in their order. -/
theorem Invariant.walks_copies (h : view.Invariant) :
    view.Walks (view.columnNames.foldlM view.copyColumn .empty) view.columnNames := by
  refine Walks.foldlM ?_ Table.empty
  intro table name _
  refine (h.walks_resolve name).followed ?_
  intro column
  exact walks_settle [] _

/-- **No work is done twice, and all in order**: in a request for a column, in narrowing and in
copying, whether these succeed or not. -/
theorem Reachable.work_orderly (h : view.Reachable) :
    (∀ name, view.Orderly [name] (view.evaluate name)) ∧
      (∀ predicate, view.Orderly (predicate.leaves.map (·.1)) (view.filter predicate)) ∧
      view.Orderly view.columnNames view.extract := by
  have hi := h.invariant
  refine ⟨?_, ?_, ?_⟩
  · intro name
    exact hi.orderly_run (hi.walks_resolve name)
  · intro predicate
    rw [View.filter]
    split
    · exact hi.orderly_failed _
    · exact (hi.orderly_run (hi.walks_narrow predicate)).map _
  · exact hi.orderly_run hi.walks_copies

/-- The capitals are needed by both leaves, by one of them for the sake of the lengths. -/
theorem postOrder_accented :
    capitals.PostOrder [] ["length", "capitals"] ["text", "capitals", "length"] := by
  have hlength : capitals.sourcesOf "length" = ["capitals"] :=
    sourcesOf_of_virtual virtualColumn?_length
  have hcapitals : capitals.sourcesOf "capitals" = ["text"] :=
    sourcesOf_of_virtual virtualColumn?_capitals
  have htext : capitals.sourcesOf "text" = [] :=
    sourcesOf_of_not_virtual
      (reachable_capitals.invariant.virtualColumn?_eq_none_iff.mpr (by decide))
  have hfirst : capitals.PostOrder [] ["text"] ([] ++ ["text"]) := by
    refine .visit List.not_mem_nil ?_ (.nil ([] ++ ["text"]))
    rw [htext]
    exact .nil []
  have hsecond : capitals.PostOrder [] ["capitals"] (["text"] ++ ["capitals"]) := by
    refine .visit List.not_mem_nil ?_ (.nil (["text"] ++ ["capitals"]))
    rwa [hcapitals]
  have hrest : capitals.PostOrder (["text", "capitals"] ++ ["length"]) ["capitals"]
      ["text", "capitals", "length"] := .seen (by decide) (.nil _)
  refine .visit List.not_mem_nil ?_ hrest
  rwa [hlength]

/-- Both leaves need the capitals, which are computed once, before the lengths. -/
theorem work_capitals :
    capitals.Reachable ∧ capitals.Orderly ["length", "capitals"] (capitals.filter accented) ∧
      (capitals.filter accented).called =
        [⟨"capitals", "str_upper", ["text"]⟩, ⟨"length", "str_len", ["capitals"]⟩] := by
  have hi := reachable_capitals.invariant
  have hw : capitals.Orderly ["length", "capitals"] (capitals.filter accented) :=
    reachable_capitals.work_orderly.2.1 accented
  have hmask : capitals.narrowed accented = .ok (.ofList [false, false, true]) := by decide +kernel
  have hknown : ∀ name ∈ accented.columns, capitals.contains name = true := by
    simp [accented, contains_capitals]
  have hf := hi.filter_of_room (by decide) hknown
  rw [hmask] at hf
  obtain ⟨order, ho, hcalled⟩ := hw.complete _ hf
  obtain rfl := ho.unique postOrder_accented
  have htext : capitals.virtualColumn? "text" = none :=
    hi.virtualColumn?_eq_none_iff.mpr (by decide)
  have hcapitals : capitals.virtualColumn? "capitals" = some ⟨"capitals", "str_upper", ["text"]⟩ :=
    virtualColumn?_capitals
  have hlength : capitals.virtualColumn? "length" = some ⟨"length", "str_len", ["capitals"]⟩ :=
    virtualColumn?_length
  refine ⟨reachable_capitals, hw, hcalled.trans ?_⟩
  simp [htext, hcapitals, hlength]

end Requests

end View

end RowSieve

import RowSieve.Proofs.View.Memory
import RowSieve.Proofs.View.Narrowing
import RowSieve.Proofs.View.PostOrder

/-!
# The work that a resolver does

A column is worked out when it is gathered or when its function is called, and the journal tells of
both.  A resolver works out columns in depth-first post-order and remembers each one, so that its
journal, its memory and the order of what it was asked for stay in step: `View.Logged`.  Where a
computation ends early, the journal stops short of that order.

* `View.Walks.bind`, `View.Walks.mapM`, `View.Walks.remembered`: this is kept by sequences, by runs
  over lists and by the memory.
* `View.Invariant.walks_resolveAt`: resolving a column works out what it needs, in order.
-/

namespace RowSieve

/-- The column that is worked out: it is gathered, or its function is about to be called. -/
def Event.worked? : Event → Option String
  | .gathered column => some column
  | .called column _ _ => some column.name
  | _ => none

/-- The columns worked out in the course of a journal. -/
def workOf (journal : List Event) : List String :=
  journal.filterMap Event.worked?

theorem workOf_append (journal later : List Event) :
    workOf (journal ++ later) = workOf journal ++ workOf later :=
  List.filterMap_append

namespace View

open Resolve

/-! ### Memory, journal and order in step -/

/-- The event is as it should be: a stored column is gathered, and the function of a virtual one is
called with what its sources mean. -/
def Justified (view : View) : Event → Prop
  | .gathered name => view.virtualColumn? name = none
  | .called column rows arguments =>
    view.virtualColumn? column.name = some column ∧ rows = view.visibleCount ∧
      column.sources.mapM view.meaning = .ok arguments
  | _ => True

/-- **Memory and journal in step**: the journal tells of the columns `worked`, in this order, and
those remembered are `known`. -/
structure Logged (view : View) (worked known : List String) (resolver : Resolver) : Prop where
  sound : view.MemoSound resolver
  knows : ∀ name, resolver.Knows name ↔ name ∈ known
  worked : workOf resolver.journal = worked
  justified : ∀ event ∈ resolver.journal, view.Justified event

/-- How a computation may end that has these columns to work out: with all of them, or before. -/
inductive Walked {α : Type} (view : View) (order : List String) :
    EStateM.Result (Abort EvalError) Resolver α → Prop where
  | ok {value : α} {next : Resolver} (h : view.Logged order order next) :
      Walked view order (.ok value next)
  | error {cause : Abort EvalError} {next : Resolver} (hw : workOf next.journal <+: order)
      (hj : ∀ event ∈ next.journal, view.Justified event) : Walked view order (.error cause next)

/-- **A computation that works out what these columns need**, in depth-first post-order, as far as
it is not remembered. -/
def Walks {α : Type} (view : View) (action : Resolve α) (names : List String) : Prop :=
  ∀ done order resolver, view.PostOrder done names order → view.Logged done done resolver →
    view.Walked order (action resolver)

section Logged

variable {view : View} {worked known : List String} {resolver : Resolver}

theorem Logged.record (h : view.Logged worked known resolver) (event : Event)
    (hj : view.Justified event) :
    view.Logged (worked ++ event.worked?.toList) known
      { resolver with journal := resolver.journal ++ [event] } where
  sound := h.sound
  knows := h.knows
  worked := by
    rw [workOf_append, h.worked]
    cases he : event.worked? <;> simp [workOf, he]
  justified := fun other ho => (List.mem_append.mp ho).elim (h.justified other) fun ho =>
    List.mem_singleton.mp ho ▸ hj

/-- Events that are no work do not matter. -/
theorem Logged.note (h : view.Logged worked known resolver) (event : Event)
    (hw : event.worked? = none) (hj : view.Justified event) :
    view.Logged worked known { resolver with journal := resolver.journal ++ [event] } := by
  have hrecorded := h.record event hj
  rwa [hw, Option.toList_none, List.append_nil] at hrecorded

theorem Logged.insert (h : view.Logged worked known resolver) {name : String} {column : Column}
    (hm : view.meaning name = .ok column) :
    view.Logged worked (known ++ [name])
      { resolver with memo := (name, column) :: resolver.memo } where
  sound := h.sound.insert hm
  knows := fun other => by
    rw [knows_insert, h.knows, List.mem_append, List.mem_singleton, or_comm]
  worked := h.worked
  justified := h.justified

end Logged

/-! ### Rules -/

section Rules

variable {α β : Type} {view : View} {names order : List String}

theorem walks_pure (value : α) : view.Walks (pure value) [] := by
  intro done order resolver hp hl
  cases hp
  exact .ok hl

theorem walks_settle (path : List String) (outcome : Outcome EvalError α) :
    view.Walks (settle path outcome) [] := by
  intro done order resolver hp hl
  cases hp
  rcases outcome with (error | broken) | value
  · exact .error (hl.worked ▸ List.prefix_rfl) hl.justified
  · exact .error (hl.worked ▸ List.prefix_rfl) hl.justified
  · exact .ok hl

/-- Whatever is still to be worked out, the computation may fail before it starts. -/
theorem walks_fail (error : EvalError) : view.Walks (fail error : Resolve α) names :=
  fun _ _ _ hp hl => .error (hl.worked ▸ hp.isPrefix) hl.justified

theorem walks_record (event : Event) (hw : event.worked? = none) (hj : view.Justified event)
    {action : Resolve α} (h : view.Walks action names) :
    view.Walks (record event >>= fun _ => action) names := by
  intro done order resolver hp hl
  exact h done order _ hp (hl.note event hw hj)

theorem Walks.bind {action : Resolve α} {next : α → Resolve β} {later : List String}
    (h : view.Walks action names) (hn : ∀ value, view.Walks (next value) later) :
    view.Walks (action >>= next) (names ++ later) := by
  intro done order resolver hp hl
  obtain ⟨middle, hfirst, hrest⟩ := hp.exists_of_append
  have ha := h done middle resolver hfirst hl
  cases hr : action resolver with
  | ok value after =>
      rw [hr] at ha
      rw [bind_of_ok hr]
      cases ha with
      | ok ha => exact hn value middle order after hrest ha
  | error cause after =>
      rw [hr] at ha
      rw [bind_of_error hr]
      cases ha with
      | error hw hj => exact .error (hw.trans hrest.isPrefix) hj

/-- What is done afterwards is no work. -/
theorem Walks.followed {action : Resolve α} {next : α → Resolve β} (h : view.Walks action names)
    (hn : ∀ value, view.Walks (next value) []) : view.Walks (action >>= next) names := by
  have hb := h.bind hn
  rwa [List.append_nil] at hb

theorem Walks.mapM {action : String → Resolve β}
    (h : ∀ name ∈ names, view.Walks (action name) [name]) :
    view.Walks (names.mapM action) names := by
  induction names with
  | nil => exact walks_pure []
  | cons name names ih =>
      rw [List.mapM_cons]
      refine (h name List.mem_cons_self).bind fun value => ?_
      refine (ih fun other ho => h other (List.mem_cons_of_mem name ho)).followed fun values => ?_
      exact walks_pure (value :: values)

theorem Walks.foldlM {action : β → String → Resolve β}
    (h : ∀ start, ∀ name ∈ names, view.Walks (action start name) [name]) (start : β) :
    view.Walks (names.foldlM action start) names := by
  induction names generalizing start with
  | nil => exact walks_pure start
  | cons name names ih =>
      rw [List.foldlM_cons]
      refine (h start name List.mem_cons_self).bind fun next => ?_
      exact ih (fun start other ho => h start other (List.mem_cons_of_mem name ho)) next

/-- How the computation of a column may end, when the columns `inner` are those to be worked out
before it. -/
inductive Worked (view : View) (name : String) (inner : List String) :
    EStateM.Result (Abort EvalError) Resolver Column → Prop where
  | ok {column : Column} {next : Resolver} (h : view.Logged (inner ++ [name]) inner next)
      (hm : view.meaning name = .ok column) : Worked view name inner (.ok column next)
  | error {cause : Abort EvalError} {next : Resolver} (hw : workOf next.journal <+: inner ++ [name])
      (hj : ∀ event ∈ next.journal, view.Justified event) :
      Worked view name inner (.error cause next)

/-- **A computation that works out a column**, once what it needs is worked out. -/
def Works (view : View) (compute : Resolve Column) (name : String) : Prop :=
  ∀ done inner resolver, view.PostOrder done (view.sourcesOf name) inner →
    view.Logged done done resolver → view.Worked name inner (compute resolver)

/-- A column is worked out after what it needs. -/
theorem worked_bind {name : String} {action : Resolve α} {next : α → Resolve Column}
    {resolver : Resolver} (ha : view.Walked order (action resolver))
    (hn : ∀ value after, action resolver = .ok value after → view.Logged order order after →
      view.Worked name order (next value after)) :
    view.Worked name order ((action >>= next) resolver) := by
  cases hr : action resolver with
  | ok value after =>
      rw [hr] at ha
      rw [bind_of_ok hr]
      cases ha with
      | ok hl => exact hn value after hr hl
  | error cause after =>
      rw [hr] at ha
      rw [bind_of_error hr]
      cases ha with
      | error hw hj => exact .error (hw.trans (List.prefix_append _ _)) hj

/-- **The memory** takes in a column when it is worked out, and saves working it out again. -/
theorem Walks.remembered {name : String} {compute : Resolve Column}
    (h : view.Works compute name) : view.Walks (remembered name compute) [name] := by
  intro done order resolver hp hl
  cases hp with
  | seen hn hr =>
      cases hr
      obtain ⟨column, hc⟩ := (hl.knows name).mpr hn
      rw [remembered_of_some hc]
      exact .ok hl
  | @visit _ inner _ _ _ hn hs hr =>
      cases hr
      have hc : resolver.memo.lookup name = none := by
        by_contra hne
        exact hn ((hl.knows name).mp (Option.ne_none_iff_exists'.mp hne))
      have ha := h done inner resolver hs hl
      rw [remembered_of_none hc]
      generalize compute resolver = result at ha ⊢
      cases ha with
      | ok h hm => exact .ok (h.insert hm)
      | error hw hj => exact .error hw hj

end Rules

/-! ### Resolving -/

section Resolving

variable {view : View}

theorem works_fail (error : EvalError) (name : String) : view.Works (fail error) name :=
  fun _ _ _ hs hl =>
    .error (hl.worked ▸ hs.isPrefix.trans (List.prefix_append _ _)) hl.justified

theorem Invariant.works_gather (h : view.Invariant) (path : List String) {name : String}
    (hn : view.virtualColumn? name = none) : view.Works (view.gather path name) name := by
  cases hg : view.table.get? name with
  | none =>
      rw [gather, hg]
      exact works_fail _ name
  | some stored =>
      intro done inner resolver hs hl
      rw [sourcesOf_of_not_virtual hn] at hs
      cases hs
      rw [h.gather_eq path hg]
      have hm : view.meaning name = .ok (stored.taken view.rows) := by
        rw [h.meaning_of_not_virtual hn, h.gathered_eq hg]
      exact .ok (hl.record (.gathered name) hn) hm

/-- Calling the function of a column, with what its sources mean, works it out. -/
theorem Invariant.worked_compute (h : view.Invariant) (path : List String) {column : VirtualColumn}
    {function : ColumnFunction} {arguments : List Column}
    (hc : view.virtualColumn? column.name = some column)
    (hf : view.functions.get? column.function = some function)
    (ha : column.sources.mapM view.meaning = .ok arguments) {inner : List String}
    {resolver : Resolver} (hl : view.Logged inner inner resolver) :
    view.Worked column.name inner (view.compute path column function arguments resolver) := by
  have hcalled : view.Logged (inner ++ [column.name]) inner { resolver with
      journal := resolver.journal ++ [.called column view.visibleCount arguments] } :=
    hl.record (.called column view.visibleCount arguments) ⟨hc, rfl, ha⟩
  have hm : view.meaning column.name = view.applied column function arguments := by
    rw [h.meaning_of_virtual hc, combined, hf, ha]
    rfl
  rw [h.compute_eq]
  show view.Worked column.name inner (settle path (view.applied column function arguments)
    { resolver with journal := resolver.journal ++ [.called column view.visibleCount arguments] })
  rcases happlied : view.applied column function arguments with (error | broken) | output
  · exact .error (hcalled.worked ▸ List.prefix_rfl) hcalled.justified
  · exact .error (hcalled.worked ▸ List.prefix_rfl) hcalled.justified
  · exact .ok hcalled (hm.trans happlied)

/-- **Resolving a column works out what it needs**, in order. -/
theorem Invariant.walks_resolveAt (h : view.Invariant) (room : Nat) (path : List String)
    (name : String) : view.Walks (view.resolveAt room path name) [name] := by
  induction room, path, name using view.resolveAt_induction with
  | gather room path name hc => exact .remembered (h.works_gather path hc)
  | cyclic room path name column hc hp => exact .remembered (works_fail _ name)
  | tooDeep path name column hc => exact .remembered (works_fail _ name)
  | unknown room path name column hc hp hf => exact .remembered (works_fail _ name)
  | compute room path name column function hc _ hf ih =>
      obtain ⟨-, rfl⟩ := h.virtualColumn?_eq_some_iff.mp hc
      refine .remembered fun done inner resolver hs hl => ?_
      rw [sourcesOf_of_virtual hc] at hs
      have hnoted := hl.note (.resolving path column) rfl trivial
      have hwalked := Walks.mapM ih done inner _ hs hnoted
      have hmeant : view.Agrees resolver.stuck
          (column.sources.mapM (view.resolveAt room (path ++ [column.name])))
          (column.sources.mapM view.meaning) fun _ => True :=
        .mapM fun source _ => (h.agrees_resolveAt room _ source).mono fun _ _ => trivial
      have hanswers := hmeant _ hnoted.sound rfl
      rw [bind_of_ok (record_run _ resolver)]
      refine worked_bind hwalked ?_
      intro arguments next hok hlogged
      rw [hok] at hanswers
      cases hanswers with
      | ok _ _ ha => exact h.worked_compute path hc hf ha hlogged

end Resolving

end View

end RowSieve

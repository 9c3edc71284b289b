import RowSieve.Proofs.View.Declaring
import RowSieve.Proofs.View.Selection

/-!
# Declarations change nothing that is there

A view is given functions and virtual columns.  Functions are never replaced, names of columns are
never given twice, and a virtual column is computed from columns that were there before it; so what
the view said of its columns it says ever after.

* `View.Extends`: the second view has all that the first has, and perhaps more; every declaration
  extends a view (`View.extends_after`).
* `View.Extends.resolveAt_eq`: a view that extends another resolves the columns of that one step for
  step alike.
* `Registry.registerAll_eq_error`: what stays when functions are registered together and a name is
  taken.
* `View.Reachable.declarations_keep`: hence declarations keep every answer, and one that fails
  leaves the view as it was, but for the functions on texts before the first whose name is taken.
-/

namespace RowSieve

/-- The operation gives a view a function or a virtual column. -/
def Operation.Declares : Operation → Prop
  | .register _ _ | .registerTextFunctions | .define _ _ _ => True
  | .limit _ | .filter _ => False

/-! ### Functions -/

namespace Registry

theorem get?_of_registerAll {named : List (String × ColumnFunction)} {registry : Registry}
    {name : String} {function : ColumnFunction} (hf : registry.get? name = some function) :
    (registry.registerAll named).1.get? name = some function := by
  induction named generalizing registry with
  | nil => exact hf
  | cons entry rest ih =>
      rw [registerAll]
      split
      next result h => exact ih (by rw [get?_of_register h, hf, Option.some_or])
      next => exact hf

theorem contains_of_register_of_ne {registry result : Registry} {name other : String}
    {function : ColumnFunction} (h : registry.register name function = .ok result)
    (ho : other ≠ name) : result.contains other = registry.contains other := by
  rw [contains, contains, get?_of_register h, if_neg ho, Option.or_none]

theorem register_eq_error {registry : Registry} {name : String} {function : ColumnFunction}
    {error : EvalError} (h : registry.register name function = .error error) :
    registry.contains name = true ∧ error = .duplicateFunction name := by
  rw [register] at h
  split at h
  next hn => exact ⟨hn, (Except.error.inj h).symm⟩
  · cases h

/-- **What stays** when a name is taken: the functions before it. -/
theorem registerAll_eq_error {named : List (String × ColumnFunction)}
    (hnamed : (named.map (·.1)).Nodup) {registry : Registry} {error : EvalError}
    (h : (registry.registerAll named).2 = .error error) :
    ∃ before name function rest, named = before ++ (name, function) :: rest ∧
      (∀ entry ∈ before, registry.contains entry.1 = false) ∧ registry.contains name = true ∧
        error = .duplicateFunction name ∧
          (registry.registerAll named).1 = ⟨registry.entries ++ before⟩ := by
  induction named generalizing registry with
  | nil => cases h
  | cons entry tail ih =>
      obtain ⟨hfresh, htail⟩ := List.nodup_cons.mp hnamed
      rw [registerAll] at h ⊢
      split at h
      next result hr =>
        obtain ⟨hfree, hresult⟩ := register_eq_ok hr
        obtain ⟨before, name, function, rest, rfl, hbefore, hname, rfl, hstays⟩ := ih htail h
        -- the name just registered is none of those that follow
        have hsame : ∀ other, other ∈ ((before ++ (name, function) :: rest).map (·.1)) →
            result.contains other = registry.contains other := by
          refine fun other ho => contains_of_register_of_ne hr ?_
          rintro rfl
          exact hfresh ho
        refine ⟨entry :: before, name, function, rest, rfl, ?_, ?_, rfl, ?_⟩
        · refine List.forall_mem_cons.mpr ⟨hfree, fun other ho => ?_⟩
          rw [← hsame _ (List.mem_map_of_mem (List.mem_append_left _ ho))]
          exact hbefore other ho
        · rw [← hsame name (by simp)]
          exact hname
        · rw [hstays, hresult, List.append_assoc]
          rfl
      next cause hr =>
        obtain ⟨htaken, hcause⟩ := register_eq_error hr
        refine ⟨[], entry.1, entry.2, tail, rfl, by simp, htaken, ?_, ?_⟩
        · exact (Except.error.inj h).symm.trans hcause
        · rw [List.append_nil]

end Registry

theorem TextFunction.nodup_named : (named.map (·.1)).Nodup := by decide

namespace View

/-! ### Views that extend others -/

/-- **The second view has all that the first has**, over the same rows and with the same limit of
depth. -/
structure Extends (view later : View) : Prop where
  table : later.table = view.table
  mask : later.mask = view.mask
  maxDepth : later.maxDepth = view.maxDepth
  virtuals : view.virtuals <+: later.virtuals
  functions : ∀ name function, view.functions.get? name = some function →
    later.functions.get? name = some function

theorem Extends.refl (view : View) : view.Extends view :=
  ⟨rfl, rfl, rfl, List.prefix_refl _, fun _ _ => id⟩

theorem Extends.trans {view middle later : View} (h : view.Extends middle)
    (hl : middle.Extends later) : view.Extends later where
  table := hl.table.trans h.table
  mask := hl.mask.trans h.mask
  maxDepth := hl.maxDepth.trans h.maxDepth
  virtuals := h.virtuals.trans hl.virtuals
  functions := fun name function hf => hl.functions name function (h.functions name function hf)

theorem extends_withFunctions {view : View} {functions : Registry}
    (hf : ∀ name function, view.functions.get? name = some function →
      functions.get? name = some function) : view.Extends { view with functions } :=
  ⟨rfl, rfl, rfl, List.prefix_refl _, hf⟩

theorem extends_insertVirtual (view : View) (column : VirtualColumn) :
    view.Extends (view.insertVirtual column) :=
  ⟨rfl, rfl, rfl, List.prefix_append _ _, fun _ _ => id⟩

/-- **Every declaration extends the view**, whether it fails or not. -/
theorem extends_after (view : View) {operation : Operation} (hd : operation.Declares) :
    view.Extends (view.after operation) := by
  cases operation with
  | limit | filter => exact hd.elim
  | register name function =>
      refine getD_toOption (.refl view) fun result hr => ?_
      obtain ⟨functions, hfs, rfl⟩ := Outcome.map_eq_ok.mp hr
      refine extends_withFunctions fun other g hg => ?_
      rw [Registry.get?_of_register hfs, hg, Option.some_or]
  | registerTextFunctions =>
      have hf : ∀ name function, view.functions.get? name = some function →
          (view.functions.registerAll TextFunction.named).1.get? name = some function :=
        fun _ _ => Registry.get?_of_registerAll
      exact extends_withFunctions hf
  | define name function sources =>
      refine getD_toOption (.refl view) fun result hr => ?_
      obtain ⟨-, -, -, rfl⟩ := define_eq_ok hr
      exact view.extends_insertVirtual _

theorem extends_foldl_after {operations : List Operation}
    (hd : ∀ operation ∈ operations, operation.Declares) (view : View) :
    view.Extends (operations.foldl View.after view) := by
  induction operations generalizing view with
  | nil => exact .refl view
  | cons operation operations ih =>
      obtain ⟨hfirst, hrest⟩ := List.forall_mem_cons.mp hd
      exact (view.extends_after hfirst).trans (ih hrest (view.after operation))

theorem Reachable.foldl_after {operations : List Operation}
    (ho : ∀ operation ∈ operations, operation.Sound) {view : View} (h : view.Reachable) :
    (operations.foldl View.after view).Reachable := by
  induction operations generalizing view with
  | nil => exact h
  | cons operation operations ih =>
      obtain ⟨hfirst, hrest⟩ := List.forall_mem_cons.mp ho
      exact ih hrest (h.after hfirst)

namespace Extends

variable {view later : View}

/-! ### Names -/

theorem columnNames (he : view.Extends later) : view.columnNames <+: later.columnNames := by
  rw [View.columnNames, View.columnNames, he.table]
  exact (List.prefix_append_right_inj _).mpr (he.virtuals.map _)

theorem resolvedCount (he : view.Extends later) : later.resolvedCount = view.resolvedCount := by
  rw [View.resolvedCount, View.resolvedCount, he.mask, he.table]

/-- A column that was there is declared as it was: it is never declared anew. -/
theorem virtualColumn?_eq (he : view.Extends later) (h : view.Invariant) (hl : later.Invariant)
    {name : String} (hn : name ∈ view.columnNames) :
    later.virtualColumn? name = view.virtualColumn? name := by
  cases hv : view.virtualColumn? name with
  | some column =>
      obtain ⟨hm, hname⟩ := h.virtualColumn?_eq_some_iff.mp hv
      exact hl.virtualColumn?_eq_some_iff.mpr ⟨he.virtuals.subset hm, hname⟩
  | none =>
      -- a stored column, whose name no virtual column may take
      have hstored : name ∈ later.table.names := by
        rw [he.table]
        exact (List.mem_append.mp hn).resolve_right (h.virtualColumn?_eq_none_iff.mp hv)
      refine hl.virtualColumn?_eq_none_iff.mpr fun hvirtual => ?_
      exact (List.nodup_append.mp hl.names).2.2 name hstored name hvirtual rfl

/-! ### Columns -/

theorem gather_eq (he : view.Extends later) : later.gather = view.gather := by
  funext path name
  rw [gather, gather, he.table, he.mask]

theorem compute_eq (he : view.Extends later) : later.compute = view.compute := by
  funext path column function arguments
  rw [compute, compute, he.resolvedCount]

/-- **A column that was there** is resolved step for step as it was. -/
theorem resolveAt_eq (he : view.Extends later) (h : view.Invariant) (hl : later.Invariant)
    (room : Nat) (path : List String) {name : String} (hn : name ∈ view.columnNames) :
    later.resolveAt room path name = view.resolveAt room path name := by
  induction room generalizing path name with
  | zero =>
      rw [resolveAt, resolveAt, he.virtualColumn?_eq h hl hn, he.gather_eq, he.maxDepth]
  | succ room ih =>
      rw [resolveAt, resolveAt, he.virtualColumn?_eq h hl hn, he.gather_eq, he.compute_eq]
      cases hv : view.virtualColumn? name with
      | none => rfl
      | some column =>
          obtain ⟨hm, -⟩ := h.virtualColumn?_eq_some_iff.mp hv
          obtain ⟨function, hf⟩ := Option.isSome_iff_exists.mp (h.functions column hm)
          have hsources : ∀ source ∈ column.sources,
              later.resolveAt room (path ++ [name]) source =
                view.resolveAt room (path ++ [name]) source := fun source hs =>
            ih (path ++ [name]) (h.mem_columnNames_of_source ⟨column, hv, hs⟩)
          dsimp only
          rw [he.functions _ _ hf, hf]
          dsimp only
          rw [Outcome.mapM_congr hsources]

theorem resolve_eq (he : view.Extends later) (h : view.Invariant) (hl : later.Invariant)
    {name : String} (hn : name ∈ view.columnNames) : later.resolve name = view.resolve name := by
  funext resolver
  show later.resolveAt _ _ name resolver = view.resolveAt _ _ name resolver
  rw [he.resolveAt_eq h hl _ _ hn, he.maxDepth]

theorem evaluate_eq (he : view.Extends later) (h : view.Invariant) (hl : later.Invariant)
    {name : String} (hn : name ∈ view.columnNames) : later.evaluate name = view.evaluate name := by
  rw [evaluate, evaluate, request, request, he.resolve_eq h hl hn]

/-! ### Predicates -/

theorem narrow_eq (he : view.Extends later) (h : view.Invariant) (hl : later.Invariant)
    {predicate : Predicate} (hp : ∀ name ∈ predicate.columns, name ∈ view.columnNames) :
    later.narrow predicate = view.narrow predicate := by
  have hsearch : later.search predicate = view.search predicate :=
    Predicate.evaluate_congr fun name hn => he.resolve_eq h hl (hp name hn)
  have hwiden : later.widen = view.widen := by
    funext bits
    rw [widen, widen, he.mask, he.table]
  rw [View.narrow_eq, View.narrow_eq, hsearch, hwiden, he.table]

/-- **A predicate on columns that were there** selects the same rows, or fails alike. -/
theorem rows_filter (he : view.Extends later) (h : view.Invariant) (hl : later.Invariant)
    {predicate : Predicate} (hp : ∀ name ∈ predicate.columns, name ∈ view.columnNames) :
    (later.filter predicate).map View.rows = (view.filter predicate).map View.rows := by
  rw [filter_of_contains fun name hn => h.contains_iff.mpr (hp name hn),
    filter_of_contains fun name hn => hl.contains_iff.mpr (he.columnNames.subset (hp name hn)),
    he.narrow_eq h hl hp]
  generalize ((view.narrow predicate).run .fresh).1 = run
  obtain ⟨cause | mask, journal⟩ := run
  · rfl
  · rfl

end Extends

/-! ### Declarations that fail -/

theorem after_of_error {view : View} {operation : Operation} {cause : Abort EvalError}
    (ho : operation ≠ .registerTextFunctions) (h : view.outcomeOf operation = .error cause) :
    view.after operation = view := by
  cases operation with
  | limit => cases h
  | registerTextFunctions => exact absurd rfl ho
  | register name function =>
      rw [outcomeOf] at h
      rw [View.after]
      cases hr : view.register name function with
      | error error => rfl
      | ok result =>
          rw [hr] at h
          cases h
  | define name function sources =>
      rw [View.after, (Outcome.map_eq_error.mp h)]
      rfl
  | filter predicate =>
      rw [View.after, (Outcome.map_eq_error.mp h)]
      rfl

/-- Registering the functions on texts fails at the first whose name is taken, and those before it
stay. -/
theorem registerTextFunctions_of_error {view : View} {cause : Abort EvalError}
    (h : view.outcomeOf .registerTextFunctions = .error cause) :
    ∃ before name function rest, TextFunction.named = before ++ (name, function) :: rest ∧
      (∀ entry ∈ before, view.functions.contains entry.1 = false) ∧
        view.functions.contains name = true ∧ cause = .error (.duplicateFunction name) ∧
          view.after .registerTextFunctions =
            { view with functions := ⟨view.functions.entries ++ before⟩ } := by
  obtain ⟨error, herror, rfl⟩ := Outcome.exceptMapError_eq_error.mp h
  obtain ⟨before, name, function, rest, hnamed, hbefore, hname, rfl, hstays⟩ :=
    Registry.registerAll_eq_error TextFunction.nodup_named herror
  refine ⟨before, name, function, rest, hnamed, hbefore, hname, rfl, ?_⟩
  rw [← hstays]
  rfl

/-! ### Answers that are kept -/

/-- **The second view answers as the first**, about the columns of the first: the names stay in
front, a column is evaluated to the same outcome after the same events, the arguments of every
function called among them, and a predicate shows the same rows or fails alike. -/
structure Keeps (view later : View) : Prop where
  columnNames : view.columnNames <+: later.columnNames
  evaluate : ∀ name ∈ view.columnNames, later.evaluate name = view.evaluate name
  filter : ∀ predicate : Predicate, (∀ name ∈ predicate.columns, name ∈ view.columnNames) →
    (later.filter predicate).map View.rows = (view.filter predicate).map View.rows

theorem Extends.keeps {view later : View} (he : view.Extends later) (h : view.Invariant)
    (hl : later.Invariant) : view.Keeps later where
  columnNames := he.columnNames
  evaluate := fun _ hn => he.evaluate_eq h hl hn
  filter := fun _ hp => he.rows_filter h hl hp

/-- **Declarations never change what is there**, however many there are and whether they fail or
not.  Carried out in place, check by check, each ends as the operation on the whole view.  One that
fails leaves the view as it was, except that functions on texts stay when they were registered before
the first whose name is taken. -/
theorem Reachable.declarations_keep {view : View} (h : view.Reachable)
    {operations : List Operation}
    (ho : ∀ operation ∈ operations, operation.Declares ∧ operation.Sound) :
    view.Keeps (operations.foldl View.after view) ∧ Declaring.Agrees view ∧
      (∀ operation cause, operation.Declares → operation ≠ .registerTextFunctions →
        view.outcomeOf operation = .error cause → view.after operation = view) ∧
      ∀ cause, view.outcomeOf .registerTextFunctions = .error cause →
        ∃ before name function rest, TextFunction.named = before ++ (name, function) :: rest ∧
          (∀ entry ∈ before, view.functions.contains entry.1 = false) ∧
            view.functions.contains name = true ∧ cause = .error (.duplicateFunction name) ∧
              view.after .registerTextFunctions =
                { view with functions := ⟨view.functions.entries ++ before⟩ } := by
  have hlater : (operations.foldl View.after view).Reachable :=
    h.foldl_after fun operation hm => (ho operation hm).2
  have hextends := extends_foldl_after (fun operation hm => (ho operation hm).1) view
  refine ⟨hextends.keeps h.invariant hlater.invariant, view.declaring_agrees, ?_, ?_⟩
  · exact fun _ _ _ hne herror => after_of_error hne herror
  · exact fun _ herror => registerTextFunctions_of_error herror

/-- The texts, all of them shown, with a function under a name that the functions on texts need. -/
def occupied : View :=
  { ofTable shaded.table with functions := ⟨[("str_strip", TextFunction.length.call)]⟩ }

theorem reachable_occupied : occupied.Reachable := by
  have ht : Table.Built shaded.table := .addColumn .empty (.ofStrings _) rfl
  exact (Reachable.ofTable ht).after
    (show (Operation.register "str_strip" TextFunction.length.call).Sound from
      TextFunction.sound_call .length)

/-- A column is declared with that function, and it is tried to replace the stored one. -/
def attempts : List Operation :=
  [.registerTextFunctions, .define "size" "str_strip" ["text"],
    .define "text" "str_upper" ["size"]]

/-- Two functions on texts get in before the name that is taken, and the stored column stays. -/
theorem declarations_occupied :
    occupied.Reachable ∧ (∀ operation ∈ attempts, operation.Declares ∧ operation.Sound) ∧
      (attempts.foldl View.after occupied).evaluate "text" = occupied.evaluate "text" ∧
        ∃ cause, occupied.outcomeOf .registerTextFunctions = .error cause ∧
          (occupied.after .registerTextFunctions).functions.names =
            ["str_strip", "str_upper", "str_lower"] := by
  have ho : ∀ operation ∈ attempts, operation.Declares ∧ operation.Sound := by
    simp [attempts, Operation.Declares, Operation.Sound]
  have h := reachable_occupied.declarations_keep ho
  exact ⟨reachable_occupied, ho, h.1.evaluate "text" (by decide), _, rfl, rfl⟩

end View

end RowSieve

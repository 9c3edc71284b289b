import RowSieve.Proofs.View.Narrowing

/-!
# The views that can be reached

A view starts from a table, with or without a mask, and then one thing after another is done to it.
What fails leaves it as it was, except that functions on texts that were registered before the
first whose name is taken stay.

* `View.Invariant.after`: one operation keeps the invariant.
* `View.Reachable.invariant`: the invariant holds of every view that can be reached.
-/

namespace RowSieve

/-- What can be done to a view. -/
inductive Operation where
  | limit (maxDepth : Nat)
  | register (name : String) (function : ColumnFunction)
  | registerTextFunctions
  | define (name function : String) (sources : List String)
  | filter (predicate : Predicate)

/-- A function that is registered gives columns that can be built, if it is given such: there is no
other way to make a column. -/
def Operation.Sound : Operation → Prop
  | .register _ function => function.Sound
  | _ => True

namespace View

/-- The view after an operation, the same one if it failed. -/
def after (view : View) : Operation → View
  | .limit maxDepth => view.withMaxDepth maxDepth
  | .register name function => (view.register name function).toOption.getD view
  | .registerTextFunctions => view.registerTextFunctions.1
  | .define name function sources =>
    (view.define name function sources).outcome.toOption.getD view
  | .filter predicate => (view.filter predicate).outcome.toOption.getD view

/-- **The views that can be reached.** -/
inductive Reachable : View → Prop where
  | ofTable {table : Table} (ht : table.Built) : Reachable (ofTable table)
  | ofMask {table : Table} {mask : Mask} {view : View} (ht : table.Built) (hm : mask.bits.Built)
      (h : (ofMask table mask).outcome = .ok view) : Reachable view
  | after {view : View} (hv : Reachable view) {operation : Operation} (ho : operation.Sound) :
      Reachable (view.after operation)

/-- What holds of a view and of every result holds of the view afterwards. -/
theorem getD_toOption {ε : Type} {outcome : Except ε View} {view : View} {motive : View → Prop}
    (hv : motive view) (hr : ∀ result, outcome = .ok result → motive result) :
    motive (outcome.toOption.getD view) := by
  cases outcome with
  | ok result => exact hr result rfl
  | error cause => exact hv

/-- **One operation keeps the invariant.** -/
theorem Invariant.after {view : View} (h : view.Invariant) {operation : Operation}
    (ho : operation.Sound) : (view.after operation).Invariant := by
  cases operation with
  | limit maxDepth => exact h.withMaxDepth maxDepth
  | register name function => exact getD_toOption h fun _ hr => h.register ho hr
  | registerTextFunctions => exact h.registerTextFunctions
  | define name function sources => exact getD_toOption h fun _ hr => h.define hr
  | filter predicate => exact getD_toOption h fun _ hr => h.filter hr

/-- **Every view that can be reached keeps the invariant.** -/
theorem Reachable.invariant {view : View} (h : view.Reachable) : view.Invariant := by
  induction h with
  | ofTable ht => exact invariant_ofTable ht.wellFormed
  | ofMask ht hm h => exact invariant_ofMask ht.wellFormed hm.wellFormed h
  | after _ ho ih => exact ih.after ho

/-- Declaring a virtual column that may be declared. -/
theorem Reachable.insertVirtual {view : View} (h : view.Reachable) {column : VirtualColumn}
    (hn : view.contains column.name = false) (hf : view.functions.contains column.function = true)
    (hs : ∀ source ∈ column.sources, view.contains source = true) :
    (view.insertVirtual column).Reachable := by
  have hdefine := h.after
    (show (Operation.define column.name column.function column.sources).Sound from trivial)
  rwa [View.after, define_eq hn hf hs] at hdefine

/-! ### A view of texts -/

/-- Three texts, the second of them hidden, with the functions on texts and little depth. -/
def shaded : View where
  table := ⟨[("text", .ofStrings #["ab", "c", "dé"])]⟩
  mask := some (.ofList [true, false, true])
  functions := (Registry.empty.registerAll TextFunction.named).1
  virtuals := []
  positions := ∅
  maxDepth := 2

/-- Their capitals, and the lengths of these. -/
def capitals : View :=
  (shaded.insertVirtual ⟨"capitals", "str_upper", ["text"]⟩).insertVirtual
    ⟨"length", "str_len", ["capitals"]⟩

theorem reachable_shaded : shaded.Reachable := by
  have ht : Table.Built shaded.table := .addColumn .empty (.ofStrings _) rfl
  have hmask : Reachable { ofTable shaded.table with mask := shaded.mask } :=
    .ofMask ht (.ofList [true, false, true]) rfl
  have hfunctions := hmask.after (show Operation.registerTextFunctions.Sound from trivial)
  exact hfunctions.after (show (Operation.limit 2).Sound from trivial)

theorem contains_shaded (name : String) : shaded.contains name = (name == "text") :=
  contains_of_names rfl rfl name

theorem contains_capitals (name : String) :
    capitals.contains name = (name == "text" || "capitals" == name || "length" == name) := by
  rw [capitals, contains_insertVirtual, contains_insertVirtual, contains_shaded]

theorem reachable_capitals : capitals.Reachable := by
  refine (reachable_shaded.insertVirtual ?_ ?_ ?_).insertVirtual ?_ ?_ ?_
  · simp [contains_shaded]
  · rfl
  · simp [contains_shaded]
  · simp [contains_shaded, contains_insertVirtual]
  · rfl
  · simp [contains_insertVirtual]

end View

end RowSieve

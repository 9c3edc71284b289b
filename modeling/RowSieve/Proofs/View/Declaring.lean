import RowSieve.Proofs.View.Reachable

/-!
# Declaring in place

A declaration goes through its checks one by one and then changes the view itself.  A function is
put under its name, and a place noted for that of a column, in the stead of whatever stands there;
so it is the checks that keep what is there, and they come before any change.

* `Declaring.Agrees`: each declaration carried out in place ends as the one on the whole view says,
  and so leaves the view that comes after it.
* `View.declaring_agrees`: this holds of every view.
-/

namespace RowSieve

/-- Put a function under a name, in the place of the one that stands there. -/
def Registry.put (registry : Registry) (name : String) (function : ColumnFunction) : Registry :=
  ⟨registry.entries.filter (·.1 != name) ++ [(name, function)]⟩

/-- A free name takes a function in at the end. -/
theorem Registry.put_of_contains {registry : Registry} {name : String}
    (h : registry.contains name = false) (function : ColumnFunction) :
    registry.put name function = ⟨registry.entries ++ [(name, function)]⟩ := by
  have hfree : ∀ entry ∈ registry.entries, (entry.1 != name) = true := by
    rw [contains, get?, Option.isSome_eq_false_iff, Option.isNone_iff_eq_none,
      List.lookup_eq_none_iff] at h
    exact fun entry he => bne_iff_ne.mpr fun hn => by simpa [hn] using h entry he
  rw [put, List.filter_eq_self.mpr hfree]

/-- A computation that changes a view in place.  What it ends early with leaves the view as it is at
that moment. -/
abbrev Declaring := EStateM (Abort EvalError) View

namespace Declaring

/-! ### Steps -/

/-- Go on if this holds of the view, and otherwise stop at an error. -/
def require (condition : View → Bool) (error : EvalError) : Declaring Unit := do
  if condition (← get) then pure () else throw (.error error)

/-- Put a function under a name. -/
def putFunction (name : String) (function : ColumnFunction) : Declaring Unit :=
  modify fun view => { view with functions := view.functions.put name function }

/-- Note that the next virtual column has this name. -/
def notePosition (name : String) : Declaring Unit :=
  modify fun view => { view with positions := view.positions.insert name view.virtuals.length }

/-- Add a virtual column at the end. -/
def addVirtual (column : VirtualColumn) : Declaring Unit :=
  modify fun view => { view with virtuals := view.virtuals ++ [column] }

/-! ### Declarations -/

/-- Give the view a function under a name that is still free. -/
def register (name : String) (function : ColumnFunction) : Declaring Unit := do
  require (fun view => !view.functions.contains name) (.duplicateFunction name)
  putFunction name function

/-- Give the view functions one after another. -/
def registerAll (named : List (String × ColumnFunction)) : Declaring Unit :=
  forM named fun entry => register entry.1 entry.2

/-- Declare a virtual column. -/
def define (name function : String) (sources : List String) : Declaring Unit := do
  require (fun view => !view.contains name) (.data (.duplicateColumn name))
  require (fun view => view.functions.contains function) (.unknownFunction function)
  forM sources fun source => require (·.contains source) (.data (.unknownColumn source))
  notePosition name
  addVirtual ⟨name, function, sources⟩

end Declaring

namespace View

/-! ### How declarations end -/

/-- How an operation ends. -/
def outcomeOf (view : View) : Operation → Outcome EvalError Unit
  | .limit _ => .ok ()
  | .register name function => Outcome.ofExcept ((view.register name function).map fun _ => ())
  | .registerTextFunctions => Outcome.ofExcept view.registerTextFunctions.2
  | .define name function sources =>
    (view.define name function sources).outcome.map fun _ => ()
  | .filter predicate => (view.filter predicate).outcome.map fun _ => ()

end View

namespace Declaring

/-- An end of this kind, with this view. -/
def ended (view : View) : Outcome EvalError Unit → EStateM.Result (Abort EvalError) View Unit
  | .ok _ => .ok () view
  | .error cause => .error cause view

section Runs

variable {view : View}

theorem require_run {condition : View → Bool} (h : condition view = true) (error : EvalError) :
    require condition error view = .ok () view := by
  rw [require, bind_run (show (get : Declaring View) view = .ok view view from rfl), if_pos h]
  rfl

theorem require_run_error {condition : View → Bool} (h : condition view = false)
    (error : EvalError) : require condition error view = .error (.error error) view := by
  rw [require, bind_run (show (get : Declaring View) view = .ok view view from rfl), h]
  rfl

/-- Registering changes nothing but the functions, and these only when the name is free. -/
theorem register_run (view : View) (name : String) (function : ColumnFunction) :
    register name function view =
      ended (view.after (.register name function)) (view.outcomeOf (.register name function)) := by
  rw [View.outcomeOf, View.after, View.register, Registry.register, register]
  cases hn : view.functions.contains name with
  | true => exact bind_run_error (require_run_error (by rw [hn]; rfl) _)
  | false =>
      rw [bind_run (require_run (by rw [hn]; rfl) _)]
      show EStateM.Result.ok () { view with functions := view.functions.put name function } = _
      rw [Registry.put_of_contains hn]
      rfl

theorem registerAll_run (view : View) (named : List (String × ColumnFunction)) :
    registerAll named view =
      ended { view with functions := (view.functions.registerAll named).1 }
        (Outcome.ofExcept (view.functions.registerAll named).2) := by
  induction named generalizing view with
  | nil => rfl
  | cons entry rest ih =>
      have hentry := register_run view entry.1 entry.2
      rw [registerAll, List.forM_cons, Registry.registerAll]
      rw [View.outcomeOf, View.after, View.register] at hentry
      cases hr : view.functions.register entry.1 entry.2 with
      | error cause =>
          rw [hr] at hentry
          exact bind_run_error hentry
      | ok functions =>
          rw [hr] at hentry
          rw [bind_run hentry]
          exact ih { view with functions }

theorem registerTextFunctions_run (view : View) :
    registerAll TextFunction.named view =
      ended (view.after .registerTextFunctions) (view.outcomeOf .registerTextFunctions) :=
  registerAll_run view TextFunction.named

/-- The first source that is not there is what is reported. -/
theorem sources_run (view : View) (sources : List String) :
    (forM sources fun source => require (·.contains source) (.data (.unknownColumn source))) view =
      ended view ((sources.find? fun source => !view.contains source).elim (.ok ()) fun missing =>
        .error (.error (.data (.unknownColumn missing)))) := by
  induction sources with
  | nil => rfl
  | cons source rest ih =>
      rw [List.forM_cons, List.find?_cons]
      cases hs : view.contains source with
      | true => exact (bind_run (require_run hs _)).trans ih
      | false => exact bind_run_error (require_run_error hs _)

theorem define_run (view : View) (name function : String) (sources : List String) :
    define name function sources view =
      ended (view.after (.define name function sources))
        (view.outcomeOf (.define name function sources)) := by
  rw [View.outcomeOf, View.after, View.define, define]
  cases hn : view.contains name with
  | true => exact bind_run_error (require_run_error (by rw [hn]; rfl) _)
  | false =>
      rw [bind_run (require_run (by rw [hn]; rfl) _)]
      cases hf : view.functions.contains function with
      | false => exact bind_run_error (require_run_error hf _)
      | true =>
          rw [bind_run (require_run hf _)]
          have hsources := sources_run view sources
          cases hfind : sources.find? fun source => !view.contains source with
          | some missing =>
              rw [hfind] at hsources
              exact bind_run_error hsources
          | none =>
              rw [hfind] at hsources
              exact bind_run hsources

end Runs

/-- **Every declaration carried out in place ends as the operation on the whole view**, and leaves
the view that comes after the operation. -/
structure Agrees (view : View) : Prop where
  register : ∀ name function, Declaring.register name function view =
    ended (view.after (.register name function)) (view.outcomeOf (.register name function))
  registerTextFunctions : registerAll TextFunction.named view =
    ended (view.after .registerTextFunctions) (view.outcomeOf .registerTextFunctions)
  define : ∀ name function sources, Declaring.define name function sources view =
    ended (view.after (.define name function sources))
      (view.outcomeOf (.define name function sources))

end Declaring

/-- **The declarations in place** agree on every view. -/
theorem View.declaring_agrees (view : View) : Declaring.Agrees view where
  register := Declaring.register_run view
  registerTextFunctions := Declaring.registerTextFunctions_run view
  define := Declaring.define_run view

end RowSieve

import RowSieve.Proofs.View.Resolution

/-!
# What a resolver remembers

Resolving a column forgets nothing.  It remembers the columns asked for once it has them, and
otherwise only what these need; and a column is remembered after all its sources are.  This holds
however the request ends: what was computed before it failed stays, with everything it needs.

`View.Remembers` says of a resolver what it remembers at least and at most.  `View.Fills` says that a
computation adds given columns to the least, and nothing beyond the most.

* `View.fills_resolveAt`: resolving a column adds it.
-/

namespace RowSieve

/-- The column is remembered. -/
def Resolver.Knows (resolver : Resolver) (name : String) : Prop :=
  ∃ column, resolver.memo.lookup name = some column

theorem Resolver.knows_of_memo_eq {resolver other : Resolver} (hm : other.memo = resolver.memo) :
    other.Knows = resolver.Knows := by
  unfold Resolver.Knows
  rw [hm]

namespace View

open Resolve

/-- With every column come its sources. -/
def Closed (view : View) (known : String → Prop) : Prop :=
  ∀ name source, known name → view.DirectSource name source → known source

/-- A resolver remembers the columns `least`, and no others than those of `most`; what it remembers
comes with its sources. -/
structure Remembers (view : View) (least most : String → Prop) (resolver : Resolver) : Prop where
  closed : view.Closed resolver.Knows
  least : ∀ name, least name → resolver.Knows name
  most : ∀ name, resolver.Knows name → most name

/-- How a computation may end that adds these columns if it gives a value. -/
inductive Filled {α : Type} (view : View) (added : List String) (least most : String → Prop) :
    EStateM.Result (Abort EvalError) Resolver α → Prop where
  | ok {value : α} {next : Resolver}
      (h : view.Remembers (fun name => name ∈ added ∨ least name) most next) :
      Filled view added least most (.ok value next)
  | error {cause : Abort EvalError} {next : Resolver} (h : view.Remembers least most next) :
      Filled view added least most (.error cause next)

/-- **A computation that adds these columns** to what is remembered, and nothing beyond the most. -/
def Fills {α : Type} (view : View) (most : String → Prop) (action : Resolve α)
    (added : List String) : Prop :=
  ∀ least resolver, view.Remembers least most resolver →
    view.Filled added least most (action resolver)

section Rules

variable {α β : Type} {view : View} {least most : String → Prop} {added : List String}

theorem Remembers.mono {fewer : String → Prop} {resolver : Resolver}
    (h : view.Remembers least most resolver) (hl : ∀ name, fewer name → least name) :
    view.Remembers fewer most resolver :=
  { h with least := fun name hn => h.least name (hl name hn) }

theorem Remembers.of_memo_eq {resolver other : Resolver} (h : view.Remembers least most resolver)
    (hm : other.memo = resolver.memo) : view.Remembers least most other := by
  have hk := Resolver.knows_of_memo_eq hm
  exact ⟨hk ▸ h.closed, hk ▸ h.least, hk ▸ h.most⟩

theorem Fills.mono {action : Resolve α} {fewer : List String} (h : view.Fills most action added)
    (ha : ∀ name ∈ fewer, name ∈ added) : view.Fills most action fewer := by
  intro least resolver hr
  have hf := h least resolver hr
  generalize action resolver = result at hf ⊢
  cases hf with
  | ok h => exact .ok (h.mono fun name => .imp_left (ha name))
  | error h => exact .error h

theorem fills_pure (value : α) : view.Fills most (pure value) [] :=
  fun _ _ h => .ok (h.mono (by simp))

/-- What fails adds whatever one likes. -/
theorem fills_fail (error : EvalError) : view.Fills most (fail error : Resolve α) added :=
  fun _ _ h => .error h

theorem fills_record (event : Event) {action : Resolve α} (h : view.Fills most action added) :
    view.Fills most (record event >>= fun _ => action) added :=
  fun least resolver hr =>
    h least { resolver with journal := resolver.journal ++ [event] } (hr.of_memo_eq rfl)

theorem fills_settle (path : List String) (outcome : Outcome EvalError α) :
    view.Fills most (settle path outcome) [] := by
  intro least resolver h
  cases outcome with
  | ok value => exact fills_pure value least resolver h
  | error cause =>
      cases cause with
      | error error => exact .error h
      | fault broken => exact .error (h.of_memo_eq rfl)

theorem Fills.bind {action : Resolve α} {next : α → Resolve β} {later : List String}
    (h : view.Fills most action added) (hn : ∀ value, view.Fills most (next value) later) :
    view.Fills most (action >>= next) (later ++ added) := by
  intro least resolver hr
  have ha := h least resolver hr
  show view.Filled _ least most (EStateM.bind action next resolver)
  rw [EStateM.bind]
  generalize action resolver = result at ha ⊢
  cases ha with
  | error h => exact .error h
  | @ok value middle hr =>
      have hb := hn value _ middle hr
      dsimp only
      generalize next value middle = result at hb ⊢
      cases hb with
      | error h => exact .error (h.mono fun _ => .inr)
      | ok h => exact .ok (h.mono (by simp [or_assoc]))

/-- What is done afterwards takes nothing away. -/
theorem Fills.followed {action : Resolve α} {next : α → Resolve β}
    (h : view.Fills most action added) (hn : ∀ value, view.Fills most (next value) []) :
    view.Fills most (action >>= next) added :=
  h.bind hn

theorem Fills.mapM {action : String → Resolve β} {names : List String}
    (h : ∀ name ∈ names, view.Fills most (action name) [name]) :
    view.Fills most (names.mapM action) names := by
  induction names with
  | nil => exact fills_pure []
  | cons name names ih =>
      rw [List.mapM_cons]
      have hrest := ih fun other ho => h other (List.mem_cons_of_mem name ho)
      refine ((h name List.mem_cons_self).bind fun value =>
        hrest.followed fun values => fills_pure (value :: values)).mono fun other ho => ?_
      simpa [or_comm] using ho

theorem knows_insert {resolver : Resolver} {name : String} {column : Column} {other : String} :
    Resolver.Knows { resolver with memo := (name, column) :: resolver.memo } other ↔
      other = name ∨ resolver.Knows other := by
  unfold Resolver.Knows
  by_cases ho : other = name
  · simp [ho]
  · simp [List.lookup_cons, ho, beq_eq_false_iff_ne.mpr ho]

/-- A column is remembered when its sources are. -/
theorem Remembers.insert {resolver : Resolver} {name : String} {column : Column}
    (h : view.Remembers least most resolver)
    (hs : ∀ source, view.DirectSource name source → resolver.Knows source) (hm : most name) :
    view.Remembers (fun other => other ∈ [name] ∨ least other) most
      { resolver with memo := (name, column) :: resolver.memo } where
  closed := by
    intro other source ho hd
    rw [knows_insert] at ho ⊢
    rcases ho with rfl | ho
    · exact .inr (hs source hd)
    · exact .inr (h.closed other source ho hd)
  least := by
    intro other ho
    rw [knows_insert]
    exact ho.imp List.mem_singleton.mp (h.least other)
  most := by
    intro other ho
    rcases knows_insert.mp ho with rfl | ho
    · exact hm
    · exact h.most other ho

/-- **The memory** takes in a column whose sources it has. -/
theorem Fills.remembered {name : String} {compute : Resolve Column}
    (h : view.Fills most compute added)
    (hs : ∀ source, view.DirectSource name source → source ∈ added) (hm : most name) :
    view.Fills most (remembered name compute) [name] := by
  intro least resolver hr
  cases hc : resolver.memo.lookup name with
  | some column =>
      rw [remembered_of_some hc]
      refine .ok { hr with least := fun other ho => ?_ }
      rcases ho with ho | ho
      · exact ⟨column, List.mem_singleton.mp ho ▸ hc⟩
      · exact hr.least other ho
  | none =>
      have ha := h least resolver hr
      rw [remembered_of_none hc]
      generalize compute resolver = result at ha ⊢
      cases ha with
      | error h => exact .error h
      | ok h =>
          refine .ok ((h.mono fun _ => .inr).insert (fun source hd => ?_) hm)
          exact h.least source (.inl (hs source hd))

end Rules

/-! ### Resolving -/

section Resolving

variable {view : View} {most : String → Prop}

theorem fills_gather (path : List String) (name : String) :
    view.Fills most (view.gather path name) [] := by
  rw [gather]
  cases view.table.get? name with
  | none => exact fills_fail _
  | some stored =>
      refine fills_record _ ?_
      cases view.mask with
      | none => exact fills_pure stored
      | some mask => exact fills_settle path _

theorem fills_compute (path : List String) (column : VirtualColumn) (function : ColumnFunction)
    (arguments : List Column) :
    view.Fills most (view.compute path column function arguments) [] := by
  rw [compute_eq]
  exact fills_record _ (fills_settle path _)

theorem mem_sources_of_directSource {name source : String} {column : VirtualColumn}
    (hc : view.virtualColumn? name = some column) (hd : view.DirectSource name source) :
    source ∈ column.sources := by
  obtain ⟨other, ho, hs⟩ := hd
  obtain rfl := Option.some.inj (hc.symm.trans ho)
  exact hs

/-- **Resolving a column** adds it, and nothing beyond a closed set that it belongs to. -/
theorem fills_resolveAt (hclosed : view.Closed most) (room : Nat) (path : List String)
    {name : String} (hm : most name) : view.Fills most (view.resolveAt room path name) [name] := by
  induction room, path, name using view.resolveAt_induction with
  | gather room path name hc =>
      refine (fills_gather path name).remembered (fun source hd => ?_) hm
      obtain ⟨column, hv, -⟩ := hd
      cases hc.symm.trans hv
  | cyclic room path name column hc _ | tooDeep path name column hc
  | unknown room path name column hc _ =>
      exact (fills_fail _).remembered (fun source => mem_sources_of_directSource hc) hm
  | compute room path name column function hc _ hf ih =>
      refine Fills.remembered ?_ (fun source => mem_sources_of_directSource hc) hm
      refine fills_record _ (.followed (.mapM fun source hs => ?_) fun arguments => ?_)
      · exact ih source hs (hclosed name source hm ⟨column, hc, hs⟩)
      · exact fills_compute path column function arguments

end Resolving

end View

end RowSieve

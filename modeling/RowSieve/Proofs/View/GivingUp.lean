import RowSieve.Proofs.View.Memory

/-!
# Functions that give up now and then

A function may give up in one request and not in another.  `View.Wavers` relates a view to itself in
another mood: some calls give up, and all others answer as ever.

When a call gives up, the columns whose sources were being resolved stay on the resolver's path:
`beingResolved` reads them off the journal.  `View.Survives` follows a computation in whatever mood:
what it answers is what is meant, what it remembers is sound, the columns on the path are not
remembered, and at a fault the path has grown by those columns that were being resolved.

* `View.Survives.bind`, `View.Survives.mapM`, `View.survives_remembered`: this is kept by sequences,
  by runs over lists and by the memory.
* `View.Wavers.survives_resolveAt`: resolving a column survives.
-/

namespace RowSieve

/-! ### Columns being resolved -/

/-- The columns whose sources are being resolved after an event: one more when they are begun, and
one less when its function is called. -/
def Event.nest (nested : List String) : Event → List String
  | .resolving _ column => nested ++ [column.name]
  | .called column _ _ => nested.erase column.name
  | _ => nested

/-- **The columns whose sources were being resolved** when the journal ended, outermost first. -/
def beingResolved (journal : List Event) : List String :=
  journal.foldl Event.nest []

theorem beingResolved_append_singleton (journal : List Event) (event : Event) :
    beingResolved (journal ++ [event]) = event.nest (beingResolved journal) := by
  rw [beingResolved, List.foldl_append]
  rfl

namespace View

open Resolve

/-! ### Moods -/

/-- The call for a column, in another mood: it has the same sources, and its function answers as
that of the view or gives up. -/
def WaversAt (view moody : View) (column other : VirtualColumn) : Prop :=
  other.name = column.name ∧ other.sources = column.sources ∧
    ∃ function wavering, view.functions.get? column.function = some function ∧
      moody.functions.get? other.function = some wavering ∧
        ∀ arguments, (other.function = column.function ∧ wavering arguments = function arguments) ∨
          ∃ broken, wavering arguments = .error (.fault broken)

/-- **The view in another mood**: over the same rows the same columns are virtual, and some calls
for them give up. -/
structure Wavers (view moody : View) : Prop where
  table : moody.table = view.table
  mask : moody.mask = view.mask
  maxDepth : moody.maxDepth = view.maxDepth
  columns : ∀ name, Option.Rel (view.WaversAt moody) (view.virtualColumn? name)
    (moody.virtualColumn? name)

/-- A view has a mood in which nothing gives up. -/
theorem Invariant.wavers_self {view : View} (h : view.Invariant) : view.Wavers view where
  table := rfl
  mask := rfl
  maxDepth := rfl
  columns := fun name => by
    cases hc : view.virtualColumn? name with
    | none => exact .none
    | some column =>
        obtain ⟨hm, -⟩ := h.virtualColumn?_eq_some_iff.mp hc
        obtain ⟨function, hf⟩ := Option.isSome_iff_exists.mp (h.functions column hm)
        exact .some ⟨rfl, rfl, function, function, hf, hf, fun _ => .inl ⟨rfl, rfl⟩⟩

namespace Wavers

variable {view moody : View} {name : String}

theorem eq_none_iff (hw : view.Wavers moody) :
    moody.virtualColumn? name = none ↔ view.virtualColumn? name = none := by
  have hrel := hw.columns name
  generalize view.virtualColumn? name = column, moody.virtualColumn? name = other at hrel ⊢
  cases hrel <;> simp

theorem exists_of_moody (hw : view.Wavers moody) {other : VirtualColumn}
    (ho : moody.virtualColumn? name = some other) :
    ∃ column, view.virtualColumn? name = some column ∧ view.WaversAt moody column other := by
  have hrel := hw.columns name
  rw [ho] at hrel
  generalize view.virtualColumn? name = column at hrel ⊢
  cases hrel with
  | some h => exact ⟨_, rfl, h⟩

theorem exists_of_base (hw : view.Wavers moody) {column : VirtualColumn}
    (hc : view.virtualColumn? name = some column) :
    ∃ other, moody.virtualColumn? name = some other ∧ view.WaversAt moody column other := by
  have hrel := hw.columns name
  rw [hc] at hrel
  generalize moody.virtualColumn? name = other at hrel ⊢
  cases hrel with
  | some h => exact ⟨_, rfl, h⟩

/-- What depends on what is not a matter of mood. -/
theorem directSource_eq (hw : view.Wavers moody) : moody.DirectSource = view.DirectSource := by
  funext name source
  refine propext ⟨?_, ?_⟩
  · rintro ⟨other, ho, hs⟩
    obtain ⟨column, hc, -, hsources, -⟩ := hw.exists_of_moody ho
    exact ⟨column, hc, hsources ▸ hs⟩
  · rintro ⟨column, hc, hs⟩
    obtain ⟨other, ho, -, hsources, -⟩ := hw.exists_of_base hc
    exact ⟨other, ho, hsources ▸ hs⟩

theorem gather_eq (hw : view.Wavers moody) : moody.gather = view.gather := by
  funext path name
  rw [gather, gather, hw.table, hw.mask]

theorem resolvedCount_eq (hw : view.Wavers moody) : moody.resolvedCount = view.resolvedCount := by
  rw [resolvedCount, resolvedCount, hw.mask, hw.table]

/-- A call answers as ever, or gives up. -/
theorem applied_eq (hw : view.Wavers moody) (h : view.Invariant) {column other : VirtualColumn}
    {function wavering : ColumnFunction} (hname : other.name = column.name)
    (hcall : ∀ arguments,
      (other.function = column.function ∧ wavering arguments = function arguments) ∨
        ∃ broken, wavering arguments = .error (.fault broken)) (arguments : List Column) :
    appliedOver moody.resolvedCount other wavering arguments =
        view.applied column function arguments ∨
      ∃ broken, appliedOver moody.resolvedCount other wavering arguments =
        .error (.fault broken) := by
  rcases hcall arguments with ⟨hfunction, hcall⟩ | ⟨broken, hcall⟩
  · rw [hw.resolvedCount_eq, h.resolvedCount_eq, applied, appliedOver, appliedOver, hname, hfunction,
      hcall]
    exact .inl rfl
  · rw [appliedOver, hcall]
    exact .inr ⟨broken, rfl⟩

end Wavers

/-! ### The path -/

/-- **The path is held**: what is remembered is what is meant, and the columns on the path, all of
them virtual and none twice, are not remembered. -/
structure Held (view : View) (path : List String) (resolver : Resolver) : Prop where
  sound : view.MemoSound resolver
  nodup : path.Nodup
  virtual : ∀ name ∈ path, ∃ column, view.virtualColumn? name = some column
  unknown : ∀ name ∈ path, ¬ resolver.Knows name

/-- How a computation for the columns on the path may end, if `nested` were being resolved at its
start.  A fault comes with the last event, the call for a column; the sources of some more columns
were being resolved for its sake, and these columns are what the fault leaves on the path. -/
inductive Survived {α : Type} (view : View) (path nested stuck : List String)
    (meant : Outcome EvalError α) (refused : EvalError → Prop) :
    EStateM.Result (Abort EvalError) Resolver α → Prop where
  | ok {value : α} {next : Resolver} (hh : view.Held path next) (hs : next.stuck = stuck)
      (hn : beingResolved next.journal = nested) (h : meant = .ok value) :
      Survived view path nested stuck meant refused (.ok value next)
  | error {error : EvalError} {next : Resolver} (hh : view.Held path next)
      (hs : next.stuck = stuck) (h : meant = .error (.error error) ∨ refused error) :
      Survived view path nested stuck meant refused (.error (.error error) next)
  | fault {broken : Fault} {next : Resolver} {inner : List String} {before : List Event}
      {column : VirtualColumn} {rows : Nat} {arguments : List Column}
      (hh : view.Held (path ++ inner) next) (hs : next.stuck = path ++ inner)
      (hj : next.journal = before ++ [.called column rows arguments])
      (hb : beingResolved before = nested ++ inner ++ [column.name])
      (hn : beingResolved next.journal = nested ++ inner) :
      Survived view path nested stuck meant refused (.error (.fault broken) next)

/-- **A computation that survives**: from every resolver that holds the path, of which the last
columns are being resolved. -/
def Survives {α : Type} (view : View) (path : List String) (action : Resolve α)
    (meant : Outcome EvalError α) (refused : EvalError → Prop) : Prop :=
  ∀ resolver, view.Held path resolver → beingResolved resolver.journal <:+ path →
    view.Survived path (beingResolved resolver.journal) resolver.stuck meant refused
      (action resolver)

section Held

variable {view : View} {path : List String} {resolver : Resolver}

theorem Held.of_memo_eq {other : Resolver} (h : view.Held path resolver)
    (hm : other.memo = resolver.memo) : view.Held path other where
  sound := fun name column hc => h.sound name column (hm ▸ hc)
  nodup := h.nodup
  virtual := h.virtual
  unknown := Resolver.knows_of_memo_eq hm ▸ h.unknown

/-- One more column on the path. -/
theorem Held.append (h : view.Held path resolver) {name : String} (hp : name ∉ path)
    (hv : ∃ column, view.virtualColumn? name = some column) (hk : ¬ resolver.Knows name) :
    view.Held (path ++ [name]) resolver where
  sound := h.sound
  nodup := h.nodup.append (List.nodup_singleton _) (List.disjoint_singleton.mpr hp)
  virtual := fun other ho => (List.mem_append.mp ho).elim (h.virtual other) fun ho =>
    List.mem_singleton.mp ho ▸ hv
  unknown := fun other ho => (List.mem_append.mp ho).elim (h.unknown other) fun ho =>
    List.mem_singleton.mp ho ▸ hk

theorem Held.of_append {inner : List String} (h : view.Held (path ++ inner) resolver) :
    view.Held path resolver where
  sound := h.sound
  nodup := h.nodup.of_append_left
  virtual := fun name hn => h.virtual name (List.mem_append_left _ hn)
  unknown := fun name hn => h.unknown name (List.mem_append_left _ hn)

theorem Held.insert (h : view.Held path resolver) {name : String} {column : Column}
    (hp : name ∉ path) (hm : view.meaning name = .ok column) :
    view.Held path { resolver with memo := (name, column) :: resolver.memo } where
  sound := h.sound.insert hm
  nodup := h.nodup
  virtual := h.virtual
  unknown := fun other ho hk => by
    rcases knows_insert.mp hk with rfl | hk
    · exact hp ho
    · exact h.unknown other ho hk

end Held

/-! ### Rules -/

section Rules

variable {α β : Type} {view : View} {path : List String} {refused : EvalError → Prop}

theorem survives_pure (value : α) : view.Survives path (pure value) (.ok value) refused :=
  fun _ hh _ => .ok hh rfl rfl rfl

theorem survives_fail {meant : Outcome EvalError α} {error : EvalError}
    (h : meant = .error (.error error) ∨ refused error) :
    view.Survives path (fail error) meant refused :=
  fun _ hh _ => .error hh rfl h

theorem Survived.mono {nested stuck : List String} {meant : Outcome EvalError α}
    {allowed : EvalError → Prop} {result : EStateM.Result (Abort EvalError) Resolver α}
    (h : view.Survived path nested stuck meant refused result)
    (hr : ∀ error, refused error → allowed error) :
    view.Survived path nested stuck meant allowed result := by
  cases h with
  | ok hh hs hn h => exact .ok hh hs hn h
  | error hh hs h => exact .error hh hs (h.imp_right (hr _))
  | fault hh hs hj hb hn => exact .fault hh hs hj hb hn

theorem Survives.mono {action : Resolve α} {meant : Outcome EvalError α}
    {allowed : EvalError → Prop} (h : view.Survives path action meant refused)
    (hr : ∀ error, refused error → allowed error) : view.Survives path action meant allowed :=
  fun resolver hh hn => (h resolver hh hn).mono hr

theorem Survives.bind {action : Resolve α} {next : α → Resolve β} {meant : Outcome EvalError α}
    {after : α → Outcome EvalError β} (h : view.Survives path action meant refused)
    (hn : ∀ value, view.Survives path (next value) (after value) refused) :
    view.Survives path (action >>= next) (meant >>= after) refused := by
  intro resolver hh hnested
  have ha := h resolver hh hnested
  cases hr : action resolver with
  | ok value middle =>
      rw [hr] at ha
      rw [bind_of_ok hr]
      cases ha with
      | ok hheld hs hsame hv =>
          subst hv
          rw [← hsame] at hnested ⊢
          rw [← hs]
          exact hn value middle hheld hnested
  | error cause middle =>
      rw [hr] at ha
      rw [bind_of_error hr]
      cases ha with
      | error hheld hs h => exact .error hheld hs (h.imp_left fun h => by rw [h]; rfl)
      | fault hheld hs hj hb hn => exact .fault hheld hs hj hb hn

theorem Survives.mapM {action : α → Resolve β} {meant : α → Outcome EvalError β} {xs : List α}
    (h : ∀ x ∈ xs, view.Survives path (action x) (meant x) refused) :
    view.Survives path (xs.mapM action) (xs.mapM meant) refused := by
  induction xs with
  | nil => exact survives_pure []
  | cons x xs ih =>
      rw [List.mapM_cons, List.mapM_cons]
      refine (h x List.mem_cons_self).bind fun y => ?_
      refine (ih fun z hz => h z (List.mem_cons_of_mem x hz)).bind fun ys => ?_
      exact survives_pure (y :: ys)

/-- **The memory** takes in a column that is not on the path. -/
theorem survives_remembered {name : String} {compute : Resolve Column} (hp : name ∉ path)
    (h : ∀ resolver, view.Held path resolver → beingResolved resolver.journal <:+ path →
      ¬ resolver.Knows name →
        view.Survived path (beingResolved resolver.journal) resolver.stuck (view.meaning name)
          refused (compute resolver)) :
    view.Survives path (remembered name compute) (view.meaning name) refused := by
  intro resolver hh hnested
  cases hc : resolver.memo.lookup name with
  | some column =>
      rw [remembered_of_some hc]
      exact .ok hh rfl rfl (hh.sound name column hc)
  | none =>
      have ha := h resolver hh hnested fun ⟨column, hk⟩ => nomatch hc.symm.trans hk
      rw [remembered_of_none hc]
      generalize compute resolver = result at ha ⊢
      cases ha with
      | ok hheld hs hn hv => exact .ok (hheld.insert hp hv) hs hn hv
      | error hheld hs h => exact .error hheld hs h
      | fault hheld hs hj hb hn => exact .fault hheld hs hj hb hn

/-- What fails takes nothing into the memory, and so may concern a column on the path. -/
theorem survives_remembered_fail {name : String} {error : EvalError}
    (h : view.meaning name = .error (.error error) ∨ refused error) :
    view.Survives path (remembered name (fail error)) (view.meaning name) refused := by
  intro resolver hh hnested
  cases hc : resolver.memo.lookup name with
  | some column =>
      rw [remembered_of_some hc]
      exact .ok hh rfl rfl (hh.sound name column hc)
  | none =>
      rw [remembered_of_none hc]
      exact survives_fail h resolver hh hnested

end Rules

/-! ### Resolving -/

section Resolving

variable {view moody : View} {path : List String} {name : String} {refused : EvalError → Prop}

theorem Invariant.survives_gather (h : view.Invariant) (hn : view.virtualColumn? name = none) :
    view.Survives path (view.gather path name) (view.meaning name) refused := by
  rw [h.meaning_of_not_virtual hn]
  cases hg : view.table.get? name with
  | none =>
      rw [gather, gathered, hg]
      exact survives_fail (.inl rfl)
  | some stored =>
      intro resolver hh hnested
      rw [h.gather_eq path hg, h.gathered_eq hg]
      have hsame : beingResolved (resolver.journal ++ [.gathered name]) =
          beingResolved resolver.journal := beingResolved_append_singleton _ _
      exact .ok (hh.of_memo_eq rfl) rfl hsame rfl

/-- **Calling the function of a column** ends the resolution of its sources.  What the call gives is
taken over, and may be a fault whatever is meant. -/
theorem survived_call {column : VirtualColumn} {rows : Nat} {arguments : List Column}
    {nested : List String} {outcome meant : Outcome EvalError Column} {resolver : Resolver}
    (h : outcome = meant ∨ ∃ broken, outcome = .error (.fault broken))
    (hh : view.Held path resolver)
    (hn : beingResolved resolver.journal = nested ++ [column.name]) (hc : column.name ∉ nested) :
    view.Survived path nested resolver.stuck meant refused
      ((record (.called column rows arguments) >>= fun _ => settle path outcome) resolver) := by
  have hended : beingResolved (resolver.journal ++ [.called column rows arguments]) = nested := by
    rw [beingResolved_append_singleton, hn]
    show (_ ++ [column.name]).erase column.name = _
    rw [List.erase_append_right _ hc, List.erase_cons_head, List.append_nil]
  rcases outcome with (error | broken) | value
  · exact .error (hh.of_memo_eq rfl) rfl (.inl (h.elim Eq.symm fun ⟨_, hf⟩ => nomatch hf))
  · have hheld : view.Held (path ++ []) { resolver with
        stuck := path, journal := resolver.journal ++ [.called column rows arguments] } := by
      rw [List.append_nil]
      exact hh.of_memo_eq rfl
    exact .fault hheld (List.append_nil path).symm rfl (by rw [hn, List.append_nil])
      (hended.trans (List.append_nil nested).symm)
  · exact .ok (hh.of_memo_eq rfl) rfl hended (h.elim Eq.symm fun ⟨_, hf⟩ => nomatch hf)

/-- **Resolving the sources of a column and then calling its function**: the column is on the path
for the former, and not any more for the latter. -/
theorem survived_nested {column : VirtualColumn} {action : Resolve (List Column)}
    {meant : Outcome EvalError (List Column)} {rows : Nat}
    {calling after : List Column → Outcome EvalError Column}
    (hv : ∃ declared, view.virtualColumn? column.name = some declared)
    (hp : column.name ∉ path) (h : view.Survives (path ++ [column.name]) action meant refused)
    (hcall : ∀ arguments, calling arguments = after arguments ∨
      ∃ broken, calling arguments = .error (.fault broken)) {resolver : Resolver}
    (hh : view.Held path resolver) (hnested : beingResolved resolver.journal <:+ path)
    (hk : ¬ resolver.Knows column.name) :
    view.Survived path (beingResolved resolver.journal) resolver.stuck (meant >>= after) refused
      ((record (.resolving path column) >>= fun _ => action >>= fun arguments =>
        record (.called column rows arguments) >>= fun _ =>
          settle path (calling arguments)) resolver) := by
  let noted : Resolver :=
    { resolver with journal := resolver.journal ++ [.resolving path column] }
  have hbegun : beingResolved noted.journal = beingResolved resolver.journal ++ [column.name] :=
    beingResolved_append_singleton _ _
  have hsuffix : beingResolved noted.journal <:+ path ++ [column.name] := by
    obtain ⟨outer, ho⟩ := hnested
    exact ⟨outer, by rw [hbegun, ← List.append_assoc, ho]⟩
  have ha := h noted ((hh.append hp hv hk).of_memo_eq rfl) hsuffix
  rw [bind_of_ok (record_run _ resolver)]
  cases hr : action noted with
  | ok arguments middle =>
      rw [hr] at ha
      rw [bind_of_ok hr]
      cases ha with
      | ok hheld hs hn hv =>
          subst hv
          have hstuck : middle.stuck = resolver.stuck := hs
          rw [← hstuck]
          exact survived_call (hcall arguments) hheld.of_append (hn.trans hbegun) fun hm =>
            hp (hnested.subset hm)
  | error cause middle =>
      rw [hr] at ha
      rw [bind_of_error hr]
      cases ha with
      | error hheld hs h => exact .error hheld.of_append hs (h.imp_left fun h => by rw [h]; rfl)
      | @fault _ _ inner _ _ _ _ hheld hs hj hb hn =>
          have hpath : path ++ [column.name] ++ inner = path ++ (column.name :: inner) := by simp
          rw [hpath] at hheld hs
          rw [hbegun, List.append_assoc _ [column.name]] at hb hn
          exact .fault hheld hs hj hb hn

/-- **Resolving a column** survives in whatever mood. -/
theorem Wavers.survives_resolveAt (hw : view.Wavers moody) (h : view.Invariant) (room : Nat)
    (path : List String) (name : String) :
    view.Survives path (moody.resolveAt room path name) (view.meaning name)
      (view.Refused room path name) := by
  induction room, path, name using moody.resolveAt_induction with
  | gather room path name hc =>
      have hn := hw.eq_none_iff.mp hc
      intro resolver hh hnested
      have hp : name ∉ path := fun hp => by
        obtain ⟨column, hv⟩ := hh.virtual name hp
        cases hn.symm.trans hv
      rw [hw.gather_eq]
      exact survives_remembered hp (fun resolver hh hnested _ =>
        h.survives_gather hn resolver hh hnested) resolver hh hnested
  | cyclic room path name other ho hp =>
      exact survives_remembered_fail (.inr (.cyclic hp .refl))
  | tooDeep path name other ho =>
      obtain ⟨column, hc, -⟩ := hw.exists_of_moody ho
      have hchain : view.VirtualChain [name] := ⟨by simpa using ⟨column, hc⟩, .singleton name⟩
      rw [hw.maxDepth]
      exact survives_remembered_fail (.inr (.tooDeep hchain rfl rfl))
  | unknown room path name other ho _ hf =>
      obtain ⟨column, -, -, -, function, wavering, -, hg, -⟩ := hw.exists_of_moody ho
      cases hf.symm.trans hg
  | compute room path name other wavering ho hp hg ih =>
      obtain ⟨column, hc, hname, hsources, function, found, hf, hfound, hcall⟩ :=
        hw.exists_of_moody ho
      obtain rfl := Option.some.inj (hg.symm.trans hfound)
      obtain ⟨-, hself⟩ := h.virtualColumn?_eq_some_iff.mp hc
      obtain rfl : other.name = name := hname.trans hself
      have hmapM : view.Survives (path ++ [other.name])
          (other.sources.mapM (moody.resolveAt room (path ++ [other.name])))
          (column.sources.mapM view.meaning) (view.Refused (room + 1) path other.name) := by
        rw [← hsources]
        refine Survives.mapM fun source hs => (ih source hs).mono fun error hr => ?_
        exact h.refused_of_source ⟨column, hc, hsources ▸ hs⟩ hr
      refine survives_remembered hp fun resolver hh hnested hk => ?_
      rw [h.meaning_of_virtual hc, combined, hf]
      dsimp only
      simp only [compute_eq]
      exact survived_nested ⟨column, hc⟩ hp hmapM (hw.applied_eq h hname hcall) hh hnested hk

end Resolving

end View

end RowSieve

import RowSieve.Proofs.View.Memory

/-!
# Resolving with more remembered

`View.Steady` compares a computation with itself, started from a resolver that remembers more: it
gives the same value or the same error, unless it was refused with less.

* `View.Steady.remembered`: the memory is steady.  A column found there need not be computed again,
  and computing it would have remembered nothing new.
* `View.Invariant.steady_resolveAt`: resolving a column is steady.
* `View.Invariant.answers_resolveAt_of_knows`: a column whose sources are remembered is not refused.
-/

namespace RowSieve.View

open Resolve

/-! ### Resolvers that remember more -/

/-- What is remembered is what is meant, and comes with its sources. -/
structure Consistent (view : View) (resolver : Resolver) : Prop where
  sound : view.MemoSound resolver
  closed : view.Closed resolver.Knows

/-- The second of two consistent resolvers remembers what the first one does, and maybe more. -/
structure Ahead (view : View) (less more : Resolver) : Prop where
  consistentLess : view.Consistent less
  consistentMore : view.Consistent more
  knows : ∀ name, less.Knows name → more.Knows name

/-- How a computation ends with more remembered, given how it ends with less.  Nothing is said where it
was refused, or a function gave up. -/
inductive Upheld {α : Type} (view : View) (refused : EvalError → Prop) :
    EStateM.Result (Abort EvalError) Resolver α → EStateM.Result (Abort EvalError) Resolver α →
      Prop where
  | ok {value : α} {less more : Resolver} (h : view.Ahead less more) :
      Upheld view refused (.ok value less) (.ok value more)
  | error {error : EvalError} {less more : Resolver} :
      Upheld view refused (.error (.error error) less) (.error (.error error) more)
  | refused {error : EvalError} {less : Resolver}
      {result : EStateM.Result (Abort EvalError) Resolver α} (h : refused error) :
      Upheld view refused (.error (.error error) less) result
  | fault {broken : Fault} {less : Resolver}
      {result : EStateM.Result (Abort EvalError) Resolver α} :
      Upheld view refused (.error (.fault broken) less) result

/-- **A computation that answers alike** when more is remembered. -/
def Steady {α : Type} (view : View) (action : Resolve α) (refused : EvalError → Prop) : Prop :=
  ∀ less more, view.Ahead less more → view.Upheld refused (action less) (action more)

theorem consistent_fresh (view : View) : view.Consistent .fresh :=
  ⟨view.memoSound_fresh, fun _ _ h => nomatch h.choose_spec⟩

theorem ahead_of_fresh {view : View} {resolver : Resolver} (h : view.Consistent resolver) :
    view.Ahead .fresh resolver :=
  ⟨view.consistent_fresh, h, fun _ h => nomatch h.choose_spec⟩

theorem Consistent.of_memo_eq {view : View} {resolver other : Resolver}
    (h : view.Consistent resolver) (hm : other.memo = resolver.memo) : view.Consistent other :=
  ⟨fun name column hc => h.sound name column (hm ▸ hc),
    Resolver.knows_of_memo_eq hm ▸ h.closed⟩

section Rules

variable {α β : Type} {view : View} {refused : EvalError → Prop}

theorem steady_pure (value : α) : view.Steady (pure value) refused :=
  fun _ _ h => .ok h

theorem steady_fail (error : EvalError) : view.Steady (fail error : Resolve α) refused :=
  fun _ _ _ => .error

theorem steady_record (event : Event) {action : Resolve α} (h : view.Steady action refused) :
    view.Steady (record event >>= fun _ => action) refused := by
  intro less more ha
  exact h { less with journal := less.journal ++ [event] }
    { more with journal := more.journal ++ [event] }
    ⟨ha.consistentLess.of_memo_eq rfl, ha.consistentMore.of_memo_eq rfl, ha.knows⟩

theorem steady_settle (path : List String) (outcome : Outcome EvalError α) :
    view.Steady (settle path outcome) refused := by
  intro less more h
  cases outcome with
  | ok value => exact .ok h
  | error cause =>
      cases cause with
      | error error => exact .error
      | fault broken => exact .fault

theorem Steady.mono {action : Resolve α} {allowed : EvalError → Prop}
    (h : view.Steady action refused) (hr : ∀ error, refused error → allowed error) :
    view.Steady action allowed := by
  intro less more ha
  have hs := h less more ha
  generalize action less = result, action more = result' at hs ⊢
  cases hs with
  | ok h => exact .ok h
  | error => exact .error
  | refused h => exact .refused (hr _ h)
  | fault => exact .fault

theorem Steady.bind {action : Resolve α} {next : α → Resolve β} (h : view.Steady action refused)
    (hn : ∀ value, view.Steady (next value) refused) : view.Steady (action >>= next) refused := by
  intro less more ha
  have hs := h less more ha
  show view.Upheld refused (EStateM.bind action next less) (EStateM.bind action next more)
  rw [EStateM.bind, EStateM.bind]
  generalize action less = result, action more = result' at hs ⊢
  cases hs with
  | ok h => exact hn _ _ _ h
  | error => exact .error
  | refused h => exact .refused h
  | fault => exact .fault

theorem Steady.mapM {action : α → Resolve β} {xs : List α}
    (h : ∀ x ∈ xs, view.Steady (action x) refused) : view.Steady (xs.mapM action) refused := by
  induction xs with
  | nil => exact steady_pure []
  | cons x xs ih =>
      rw [List.mapM_cons]
      refine (h x List.mem_cons_self).bind fun y => ?_
      refine (ih fun z hz => h z (List.mem_cons_of_mem x hz)).bind fun ys => ?_
      exact steady_pure (y :: ys)

/-- A computation that says what is meant and fills the memory leaves it consistent. -/
theorem Answers.consistent {stuck added : List String} {meant : Outcome EvalError α}
    {least most : String → Prop} {value : α} {next : Resolver}
    (ha : view.Answers stuck meant refused (.ok value next))
    (hf : view.Filled added least most (.ok value next)) : view.Consistent next := by
  cases ha with
  | ok hm _ _ => cases hf with
    | ok hr => exact ⟨hm, hr.closed⟩

theorem Consistent.remembers {resolver : Resolver} (h : view.Consistent resolver)
    {most : String → Prop} (hm : ∀ name, resolver.Knows name → most name) :
    view.Remembers (fun _ => False) most resolver :=
  ⟨h.closed, fun _ => False.elim, hm⟩

section Memory

variable {name : String} {compute : Resolve Column} {less more : Resolver}

theorem Ahead.lookup_eq_none (h : view.Ahead less more) (hn : more.memo.lookup name = none) :
    less.memo.lookup name = none := by
  by_contra hne
  obtain ⟨column, hc⟩ := Option.ne_none_iff_exists'.mp hne
  obtain ⟨other, ho⟩ := h.knows name ⟨column, hc⟩
  cases ho.symm.trans hn

/-- A column found where more is remembered is what is computed with less, and what this needs is
remembered with it. -/
theorem upheld_of_some (h : view.Ahead less more) {column : Column}
    (hc : more.memo.lookup name = some column) {stuck : List String} {least : String → Prop}
    (ha : view.Answers stuck (view.meaning name) refused (remembered name compute less))
    (hf : view.Filled [name] least more.Knows (remembered name compute less)) :
    view.Upheld refused (remembered name compute less) (remembered name compute more) := by
  have hm := h.consistentMore.sound name column hc
  rw [remembered_of_some hc]
  generalize remembered name compute less = result at ha hf ⊢
  cases ha with
  | ok hsound _ hv =>
      obtain rfl := Except.ok.inj (hm.symm.trans hv)
      cases hf with
      | ok hr => exact .ok ⟨⟨hsound, hr.closed⟩, h.consistentMore, hr.most⟩
  | error _ _ he => exact .refused (he.resolve_left fun he => nomatch hm.symm.trans he)
  | fault => exact .fault

/-- A column found nowhere is computed with both, and then remembered by both. -/
theorem upheld_of_none (h : view.Ahead less more) (hn : more.memo.lookup name = none)
    (hs : view.Upheld refused (compute less) (compute more))
    (hless : ∀ column next, remembered name compute less = .ok column next → view.Consistent next)
    (hmore : ∀ column next, remembered name compute more = .ok column next →
      view.Consistent next) :
    view.Upheld refused (remembered name compute less) (remembered name compute more) := by
  rw [remembered_of_none (h.lookup_eq_none hn)] at hless ⊢
  rw [remembered_of_none hn] at hmore ⊢
  generalize compute less = result, compute more = result' at hs hless hmore ⊢
  cases hs with
  | ok hnext =>
      refine .ok ⟨hless _ _ rfl, hmore _ _ rfl, fun other => ?_⟩
      rw [knows_insert, knows_insert]
      exact .imp_right (hnext.knows other)
  | error => exact .error
  | refused h => exact .refused h
  | fault => exact .fault

/-- **The memory** is steady, if what it computes is, says what is meant and remembers no more than is
needed. -/
theorem Steady.remembered (h : view.Steady compute refused)
    (ha : ∀ stuck, view.Agrees stuck (remembered name compute) (view.meaning name) refused)
    (hf : ∀ most, view.Closed most → most name →
      view.Fills most (remembered name compute) [name]) :
    view.Steady (remembered name compute) refused := by
  intro less more hahead
  have hconsistent : ∀ start, view.Consistent start → ∀ column next,
      Resolve.remembered name compute start = .ok column next → view.Consistent next := by
    intro start hstart column next hok
    have hanswers := ha start.stuck start hstart.sound rfl
    have hfilled := hf (fun _ => True) (fun _ _ _ _ => trivial) trivial _ start
      (hstart.remembers fun _ _ => trivial)
    rw [hok] at hanswers hfilled
    exact hanswers.consistent hfilled
  have hless := hahead.consistentLess
  have hmore := hahead.consistentMore
  cases hc : more.memo.lookup name with
  | some column =>
      exact upheld_of_some hahead hc (ha less.stuck less hless.sound rfl)
        (hf more.Knows hmore.closed ⟨column, hc⟩ _ less (hless.remembers hahead.knows))
  | none =>
      exact upheld_of_none hahead hc (h less more hahead) (hconsistent less hless)
        (hconsistent more hmore)

end Memory

end Rules

/-! ### Resolving -/

section Resolving

variable {view : View} {refused : EvalError → Prop}

theorem steady_gather (path : List String) (name : String) :
    view.Steady (view.gather path name) refused := by
  rw [gather]
  cases view.table.get? name with
  | none => exact steady_fail _
  | some stored =>
      refine steady_record _ ?_
      cases view.mask with
      | none => exact steady_pure stored
      | some mask => exact steady_settle path _

theorem steady_compute (path : List String) (column : VirtualColumn) (function : ColumnFunction)
    (arguments : List Column) :
    view.Steady (view.compute path column function arguments) refused := by
  rw [compute_eq]
  exact steady_record _ (steady_settle path _)

theorem Invariant.steady_remembered (h : view.Invariant) {room : Nat} {path : List String}
    {name : String} {compute : Resolve Column}
    (he : view.resolveAt room path name = remembered name compute)
    (hs : view.Steady compute (view.Refused room path name)) :
    view.Steady (remembered name compute) (view.Refused room path name) :=
  hs.remembered (fun _ => he ▸ h.agrees_resolveAt room path name) fun _ hclosed hm =>
    he ▸ fills_resolveAt hclosed room path hm

/-- **Resolving a column is steady.** -/
theorem Invariant.steady_resolveAt (h : view.Invariant) (room : Nat) (path : List String)
    (name : String) :
    view.Steady (view.resolveAt room path name) (view.Refused room path name) := by
  refine view.resolveAt_induction (motive := fun room path name action =>
    view.resolveAt room path name = action → view.Steady action (view.Refused room path name))
    ?gather ?cyclic ?tooDeep ?unknown ?compute room path name rfl
  case gather => exact fun room path name _ he => h.steady_remembered he (steady_gather path name)
  case cyclic => exact fun room path name _ _ _ he => h.steady_remembered he (steady_fail _)
  case tooDeep => exact fun path name _ _ _ he => h.steady_remembered he (steady_fail _)
  case unknown => exact fun room path name _ _ _ _ he => h.steady_remembered he (steady_fail _)
  case compute =>
    intro room path name column function hc _ _ ih he
    refine h.steady_remembered he (steady_record _ (.bind (.mapM fun source hs => ?_) fun _ => ?_))
    · exact (ih source hs rfl).mono fun error hr => h.refused_of_source ⟨column, hc, hs⟩ hr
    · exact steady_compute path column function _

end Resolving

/-! ### Columns within reach -/

section Reach

variable {view : View} {resolver : Resolver} {name : String}

theorem resolveAt_of_some {room : Nat} {path : List String} {column : Column}
    (h : resolver.memo.lookup name = some column) :
    view.resolveAt room path name resolver = .ok column resolver := by
  cases room <;> rw [resolveAt, remembered_of_some h]

/-- Columns that are remembered are given without any work. -/
theorem exists_mapM_of_knows (hr : view.MemoSound resolver) {sources : List String}
    (hk : ∀ source ∈ sources, resolver.Knows source) (room : Nat) (path : List String) :
    ∃ arguments, sources.mapM view.meaning = .ok arguments ∧
      sources.mapM (view.resolveAt room path) resolver = .ok arguments resolver := by
  induction sources with
  | nil => exact ⟨[], rfl, rfl⟩
  | cons source sources ih =>
      obtain ⟨column, hc⟩ := hk source List.mem_cons_self
      obtain ⟨arguments, ha, htail⟩ := ih fun other ho => hk other (List.mem_cons_of_mem source ho)
      refine ⟨column :: arguments, ?_, ?_⟩
      · rw [List.mapM_cons, hr source column hc, ha]
        rfl
      · rw [List.mapM_cons]
        exact (bind_of_ok (resolveAt_of_some hc)).trans (bind_of_ok htail)

/-- **A column whose sources are remembered** is within reach, however deep it lies: it is answered with
what it means. -/
theorem Invariant.answers_resolveAt_of_knows (h : view.Invariant) (hr : view.MemoSound resolver)
    (room : Nat) {path : List String} (hp : name ∉ path)
    (hk : ∀ source, view.DirectSource name source → resolver.Knows source) :
    view.Answers resolver.stuck (view.meaning name) (fun _ => False)
      (view.resolveAt (room + 1) path name resolver) := by
  cases hv : view.virtualColumn? name with
  | none => exact h.agrees_resolveAt_of_not_virtual (room + 1) path hv resolver hr rfl
  | some declared =>
      rw [resolveAt, hv]
      dsimp only
      rw [if_neg hp]
      refine Answers.remembered hr rfl ?_
      rw [h.meaning_of_virtual hv, combined]
      cases view.functions.get? declared.function with
      | none => exact agrees_fail (.inl rfl) resolver hr rfl
      | some function =>
          -- the sources are found in the memory, which leaves the function to be called
          let noted : Resolver :=
            { resolver with journal := resolver.journal ++ [.resolving path declared] }
          obtain ⟨arguments, ha, hsources⟩ := exists_mapM_of_knows
            (show view.MemoSound noted from hr) (fun source hs => hk source ⟨declared, hv, hs⟩)
            room (path ++ [name])
          dsimp only
          rw [ha, bind_of_ok (record_run _ resolver), bind_of_ok hsources]
          exact h.agrees_compute path declared function arguments noted hr rfl

theorem Invariant.answers_resolve_of_knows (h : view.Invariant) (hroom : 0 < view.maxDepth)
    (hr : view.MemoSound resolver) (hs : resolver.stuck = [])
    (hk : ∀ source, view.DirectSource name source → resolver.Knows source) :
    view.Answers [] (view.meaning name) (fun _ => False) (view.resolve name resolver) := by
  obtain ⟨room, hroom⟩ := Nat.exists_eq_add_one.mpr hroom
  have ha := h.answers_resolveAt_of_knows hr room (hs ▸ List.not_mem_nil) hk
  show view.Answers [] _ _
    (view.resolveAt (view.maxDepth - resolver.stuck.length) resolver.stuck name resolver)
  rw [hs] at ha ⊢
  rwa [List.length_nil, Nat.sub_zero, hroom]

/-- What is never refused gives what is meant. -/
theorem Answers.exists_ok {α : Type} {stuck : List String} {value : α}
    {result : EStateM.Result (Abort EvalError) Resolver α}
    (h : view.Answers stuck (.ok value) (fun _ => False) result) :
    ∃ next, result = .ok value next := by
  cases h with
  | ok _ _ hv => exact ⟨_, by rw [Except.ok.inj hv]⟩
  | error _ _ he => exact he.elim nofun False.elim
  | fault _ hf => cases hf

theorem Invariant.resolveAt_of_knows (h : view.Invariant) (hr : view.MemoSound resolver)
    (room : Nat) {path : List String} (hp : name ∉ path) {column : Column}
    (hm : view.meaning name = .ok column)
    (hk : ∀ source, view.DirectSource name source → resolver.Knows source) :
    ∃ next, view.resolveAt (room + 1) path name resolver = .ok column next := by
  have ha := h.answers_resolveAt_of_knows hr room hp hk
  rw [hm] at ha
  exact ha.exists_ok

end Reach

end RowSieve.View

import RowSieve.Proofs.View.Meaning
import RowSieve.View.Resolver

/-!
# Resolving says what is meant

A resolver remembers columns, follows a path and has limited room; the meaning of a column knows
nothing of this.  `View.Agrees` compares a computation that talks to a resolver with what is meant:
whatever sound resolver it starts from, it ends with the value or the fault that is meant, or with the
error that is meant, or it was refused; and it leaves a sound resolver behind.

* `View.Agrees.bind`, `View.Agrees.mapM`, `View.Agrees.remembered`: agreement is kept by sequences,
  by runs over lists and by the memory.
* `View.resolveAt_induction`: the ways in which a column is resolved.
* `View.Invariant.agrees_resolveAt`: resolving a column agrees with its meaning, and is refused only
  as `View.Refused` says: for want of room at the end of a chain of virtual columns, or because of a
  column on the path.
-/

namespace RowSieve.View

open Resolve

/-! ### The memory -/

theorem get_run (resolver : Resolver) : (get : Resolve Resolver) resolver = .ok resolver resolver :=
  rfl

theorem record_run (event : Event) (resolver : Resolver) :
    record event resolver = .ok () { resolver with journal := resolver.journal ++ [event] } :=
  rfl

theorem remembered_of_some {name : String} {compute : Resolve Column} {resolver : Resolver}
    {column : Column} (h : resolver.memo.lookup name = some column) :
    remembered name compute resolver = .ok column resolver := by
  rw [remembered]
  show EStateM.bind (get : Resolve Resolver) _ resolver = _
  rw [EStateM.bind, get_run]
  dsimp only
  rw [h]
  rfl

theorem remembered_of_none {name : String} {compute : Resolve Column} {resolver : Resolver}
    (h : resolver.memo.lookup name = none) :
    remembered name compute resolver =
      match compute resolver with
      | .ok column next => .ok column { next with memo := (name, column) :: next.memo }
      | .error cause next => .error cause next := by
  rw [remembered]
  show EStateM.bind (get : Resolve Resolver) _ resolver = _
  rw [EStateM.bind, get_run]
  dsimp only
  rw [h]
  show EStateM.bind compute _ resolver = _
  rw [EStateM.bind]
  cases compute resolver <;> rfl

theorem remembered_of_error {name : String} {compute : Resolve Column} {resolver next : Resolver}
    {cause : Abort EvalError} (hl : resolver.memo.lookup name = none)
    (h : compute resolver = .error cause next) :
    remembered name compute resolver = .error cause next := by
  rw [remembered_of_none hl, h]

theorem bind_of_error {α β : Type} {action : Resolve α} {next : α → Resolve β}
    {resolver after : Resolver} {cause : Abort EvalError}
    (h : action resolver = .error cause after) :
    (action >>= next) resolver = .error cause after :=
  bind_run_error h

theorem bind_of_ok {α β : Type} {action : Resolve α} {next : α → Resolve β}
    {resolver after : Resolver} {value : α} (h : action resolver = .ok value after) :
    (action >>= next) resolver = next value after :=
  bind_run h

/-! ### Agreement -/

/-- **The columns remembered are those meant.** -/
def MemoSound (view : View) (resolver : Resolver) : Prop :=
  ∀ name column, resolver.memo.lookup name = some column → view.meaning name = .ok column

/-- What a computation may end with, if `meant` is meant and the errors that satisfy `refused` are
allowed beside it.  Only a fault changes the path that a resolver is stuck at. -/
inductive Answers {α : Type} (view : View) (stuck : List String) (meant : Outcome EvalError α)
    (refused : EvalError → Prop) : EStateM.Result (Abort EvalError) Resolver α → Prop where
  | ok {value : α} {next : Resolver} (hm : view.MemoSound next) (hs : next.stuck = stuck)
      (h : meant = .ok value) : Answers view stuck meant refused (.ok value next)
  | error {error : EvalError} {next : Resolver} (hm : view.MemoSound next) (hs : next.stuck = stuck)
      (h : meant = .error (.error error) ∨ refused error) :
      Answers view stuck meant refused (.error (.error error) next)
  | fault {broken : Fault} {next : Resolver} (hm : view.MemoSound next)
      (h : meant = .error (.fault broken)) :
      Answers view stuck meant refused (.error (.fault broken) next)

/-- **A computation that says what is meant**, from every sound resolver. -/
def Agrees {α : Type} (view : View) (stuck : List String) (action : Resolve α)
    (meant : Outcome EvalError α) (refused : EvalError → Prop) : Prop :=
  ∀ resolver, view.MemoSound resolver → resolver.stuck = stuck →
    view.Answers stuck meant refused (action resolver)

theorem MemoSound.insert {view : View} {resolver : Resolver} (hm : view.MemoSound resolver)
    {name : String} {column : Column} (h : view.meaning name = .ok column) :
    view.MemoSound { resolver with memo := (name, column) :: resolver.memo } := by
  intro other found hf
  rw [List.lookup_cons] at hf
  split at hf
  next he =>
    rw [eq_of_beq he, ← Option.some.inj hf]
    exact h
  next => exact hm other found hf

theorem memoSound_fresh (view : View) : view.MemoSound .fresh :=
  fun _ _ h => nomatch h

section Rules

variable {α β : Type} {view : View} {stuck : List String} {refused : EvalError → Prop}

theorem agrees_pure (value : α) : view.Agrees stuck (pure value) (.ok value) refused :=
  fun _ hm hs => .ok hm hs rfl

theorem agrees_fail {meant : Outcome EvalError α} {error : EvalError}
    (h : meant = .error (.error error) ∨ refused error) :
    view.Agrees stuck (fail error) meant refused :=
  fun _ hm hs => .error hm hs h

/-- Events do not matter. -/
theorem agrees_record (event : Event) {action : Resolve α} {meant : Outcome EvalError α}
    (h : view.Agrees stuck action meant refused) :
    view.Agrees stuck (record event >>= fun _ => action) meant refused :=
  fun resolver hm hs => h { resolver with journal := resolver.journal ++ [event] } hm hs

theorem agrees_settle (path : List String) (outcome : Outcome EvalError α) :
    view.Agrees stuck (settle path outcome) outcome refused := by
  intro resolver hm hs
  cases outcome with
  | ok value => exact .ok hm hs rfl
  | error cause =>
      cases cause with
      | error error => exact .error hm hs (.inl rfl)
      | fault broken => exact .fault hm rfl

theorem Answers.mono {meant : Outcome EvalError α} {allowed : EvalError → Prop}
    {result : EStateM.Result (Abort EvalError) Resolver α}
    (h : view.Answers stuck meant refused result) (hr : ∀ error, refused error → allowed error) :
    view.Answers stuck meant allowed result := by
  cases h with
  | ok hm hs h => exact .ok hm hs h
  | error hm hs h => exact .error hm hs (h.imp_right (hr _))
  | fault hm h => exact .fault hm h

theorem Agrees.mono {action : Resolve α} {meant : Outcome EvalError α}
    {allowed : EvalError → Prop} (h : view.Agrees stuck action meant refused)
    (hr : ∀ error, refused error → allowed error) : view.Agrees stuck action meant allowed :=
  fun resolver hm hs => (h resolver hm hs).mono hr

/-- What comes after an answer is answered as well. -/
theorem Answers.bind {action : Resolve α} {next : α → Resolve β} {meant : Outcome EvalError α}
    {after : α → Outcome EvalError β} {resolver : Resolver}
    (h : view.Answers stuck meant refused (action resolver))
    (hn : ∀ value middle, action resolver = .ok value middle → view.MemoSound middle →
      middle.stuck = stuck → meant = .ok value →
        view.Answers stuck (after value) refused (next value middle)) :
    view.Answers stuck (meant >>= after) refused ((action >>= next) resolver) := by
  show view.Answers stuck _ refused (EStateM.bind action next resolver)
  rw [EStateM.bind]
  generalize action resolver = result at h hn ⊢
  cases h with
  | ok hm hs h =>
      subst h
      exact hn _ _ rfl hm hs rfl
  | error hm hs h => exact .error hm hs (h.imp_left fun h => by rw [h]; rfl)
  | fault hm h => exact .fault hm (by rw [h]; rfl)

theorem Agrees.bind {action : Resolve α} {next : α → Resolve β} {meant : Outcome EvalError α}
    {after : α → Outcome EvalError β} (h : view.Agrees stuck action meant refused)
    (hn : ∀ value, meant = .ok value → view.Agrees stuck (next value) (after value) refused) :
    view.Agrees stuck (action >>= next) (meant >>= after) refused := by
  intro resolver hm hs
  refine (h resolver hm hs).bind ?_
  intro value middle _ hmiddle hstuck hmeant
  exact hn value hmeant middle hmiddle hstuck

theorem Agrees.foldlM {action : β → α → Resolve β} {meant : β → α → Outcome EvalError β}
    {xs : List α} (h : ∀ start, ∀ x ∈ xs, view.Agrees stuck (action start x) (meant start x) refused)
    (start : β) : view.Agrees stuck (xs.foldlM action start) (xs.foldlM meant start) refused := by
  induction xs generalizing start with
  | nil => exact agrees_pure start
  | cons x xs ih =>
      rw [List.foldlM_cons, List.foldlM_cons]
      refine (h start x List.mem_cons_self).bind fun next _ => ?_
      exact ih (fun start y hy => h start y (List.mem_cons_of_mem x hy)) next

theorem Agrees.mapM {action : α → Resolve β} {meant : α → Outcome EvalError β} {xs : List α}
    (h : ∀ x ∈ xs, view.Agrees stuck (action x) (meant x) refused) :
    view.Agrees stuck (xs.mapM action) (xs.mapM meant) refused := by
  induction xs with
  | nil => exact agrees_pure []
  | cons x xs ih =>
      rw [List.mapM_cons, List.mapM_cons]
      refine (h x List.mem_cons_self).bind fun y _ => ?_
      refine (ih fun z hz => h z (List.mem_cons_of_mem x hz)).bind fun ys _ => ?_
      exact agrees_pure (y :: ys)

/-- **The memory** gives what was meant when it was filled. -/
theorem Answers.remembered {name : String} {compute : Resolve Column} {resolver : Resolver}
    (hm : view.MemoSound resolver) (hs : resolver.stuck = stuck)
    (h : view.Answers stuck (view.meaning name) refused (compute resolver)) :
    view.Answers stuck (view.meaning name) refused (remembered name compute resolver) := by
  cases hc : resolver.memo.lookup name with
  | some column =>
      rw [remembered_of_some hc]
      exact .ok hm hs (hm name column hc)
  | none =>
      rw [remembered_of_none hc]
      generalize compute resolver = result at h ⊢
      cases h with
      | ok hm hs h => exact .ok (hm.insert h) hs h
      | error hm hs h => exact .error hm hs h
      | fault hm h => exact .fault hm h

theorem Agrees.remembered {name : String} {compute : Resolve Column}
    (h : view.Agrees stuck compute (view.meaning name) refused) :
    view.Agrees stuck (remembered name compute) (view.meaning name) refused :=
  fun resolver hm hs => (h resolver hm hs).remembered hm hs

end Rules

/-! ### Refusals -/

/-- Virtual columns, each a direct source of the one before. -/
def VirtualChain (view : View) (chain : List String) : Prop :=
  (∀ name ∈ chain, ∃ column, view.virtualColumn? name = some column) ∧
    chain.IsChain view.DirectSource

/-- **Why a request may be refused** although the column means something: it leads down a chain of
virtual columns that takes more room than there is, or back to the path. -/
inductive Refused (view : View) (room : Nat) (path : List String) (name : String) :
    EvalError → Prop where
  | tooDeep {chain : List String} {column : String} (hc : view.VirtualChain (name :: chain))
      (hl : (name :: chain).getLast? = some column) (hr : chain.length = room) :
      Refused view room path name (.definitionTooDeep column view.maxDepth)
  | cyclic {needed : String} {cycle : List String} (hp : needed ∈ path)
      (hn : Relation.ReflTransGen view.DirectSource name needed) :
      Refused view room path name (.cyclicDefinition cycle)

/-- Down a chain the ranks fall. -/
theorem Invariant.length_lt_rank {view : View} (h : view.Invariant) {name : String}
    {chain : List String} (hc : view.VirtualChain (name :: chain)) :
    chain.length < view.rank name := by
  induction chain generalizing name with
  | nil =>
      obtain ⟨column, hv⟩ := hc.1 name List.mem_cons_self
      obtain ⟨position, hp, -⟩ := Option.bind_eq_some_iff.mp hv
      rw [rank, hp]
      exact Nat.succ_pos position
  | cons source chain ih =>
      obtain ⟨hvirtual, hchain⟩ := hc
      obtain ⟨hd, hchain⟩ := List.isChain_cons_cons.mp hchain
      have hlt := ih ⟨fun other ho => hvirtual other (List.mem_cons_of_mem name ho), hchain⟩
      exact Nat.lt_of_le_of_lt hlt (h.rank_lt hd)

/-- **No chain is longer than there are virtual columns.** -/
theorem Invariant.length_le_of_virtualChain {view : View} (h : view.Invariant) {name : String}
    {chain : List String} (hc : view.VirtualChain (name :: chain)) :
    (name :: chain).length ≤ view.virtuals.length :=
  Nat.le_trans (h.length_lt_rank hc) (h.rank_le_length name)

theorem Invariant.refused_of_source {view : View} (h : view.Invariant) {room : Nat}
    {path : List String} {name source : String} {error : EvalError}
    (hs : view.DirectSource name source)
    (hr : view.Refused room (path ++ [name]) source error) :
    view.Refused (room + 1) path name error := by
  cases hr with
  | @tooDeep chain column hc hl hr =>
      obtain ⟨hvirtual, hchain⟩ := hc
      have hlong : view.VirtualChain (name :: source :: chain) := by
        refine ⟨List.forall_mem_cons.mpr ⟨?_, hvirtual⟩, .cons_cons hs hchain⟩
        obtain ⟨declared, hd, -⟩ := hs
        exact ⟨declared, hd⟩
      exact .tooDeep hlong hl (congrArg Nat.succ hr)
  | @cyclic needed cycle hp hn =>
      rcases List.mem_append.mp hp with hp | hp
      · exact .cyclic hp (.head hs hn)
      · -- a column that needs itself
        rw [List.mem_singleton.mp hp] at hn
        exact absurd hn (h.not_transGen_self hs)

/-! ### Resolving -/

section Resolving

variable {view : View} {stuck : List String} {refused : EvalError → Prop}

theorem Invariant.taken_rows (h : view.Invariant) (hm : view.mask = none) {name : String}
    {stored : Column} (hg : view.table.get? name = some stored) :
    stored.taken view.rows = stored := by
  obtain ⟨hwf, hl⟩ := h.table.wellFormed_of_get? hg
  rw [rows, hm, ← hl]
  exact hwf.taken_range

/-- Without a mask the stored column is taken as it is, which is to take every row. -/
theorem Invariant.gather_eq (h : view.Invariant) (path : List String) {name : String}
    {stored : Column} (hg : view.table.get? name = some stored) :
    view.gather path name =
      (record (.gathered name) >>= fun _ => pure (stored.taken view.rows)) := by
  rw [gather, hg]
  dsimp only
  cases hm : view.mask with
  | none => rw [h.taken_rows hm hg]
  | some mask =>
      have hrows : mask.rows = view.rows := by rw [rows, hm]
      obtain ⟨hwf, hl⟩ := h.table.wellFormed_of_get? hg
      dsimp only
      rw [hrows, Column.take_eq hwf fun row hr => hl ▸ h.lt_of_mem_rows hr]
      rfl

theorem Invariant.agrees_gather (h : view.Invariant) (path : List String) (name : String) :
    view.Agrees stuck (view.gather path name) (view.gathered name) refused := by
  cases hg : view.table.get? name with
  | none =>
      rw [gather, gathered, hg]
      exact agrees_fail (.inl rfl)
  | some stored =>
      rw [h.gather_eq path hg, h.gathered_eq hg]
      exact agrees_record _ (agrees_pure _)

/-- After the call is noted, what the function answers is taken over. -/
theorem compute_eq (path : List String) (column : VirtualColumn) (function : ColumnFunction)
    (arguments : List Column) :
    view.compute path column function arguments =
      (record (.called column view.resolvedCount arguments) >>= fun _ =>
        settle path (appliedOver view.resolvedCount column function arguments)) := by
  rw [compute]
  congr 1
  funext _
  rw [appliedOver]
  rcases function arguments with (failure | broken) | output
  · rfl
  · rfl
  · show (if output.length = view.resolvedCount then pure output else fail _ : Resolve Column) =
      settle path (if output.length = view.resolvedCount then .ok output else .error (.error _))
    split <;> rfl

/-- As many rows are gathered as the mask counts. -/
theorem Invariant.resolvedCount_eq (h : view.Invariant) :
    view.resolvedCount = view.visibleCount := by
  rw [h.visibleCount_eq]
  unfold resolvedCount rows
  cases view.mask with
  | none => exact List.length_range.symm
  | some mask => rfl

/-- After the call is noted, what is meant is taken over. -/
theorem Invariant.compute_eq (h : view.Invariant) (path : List String) (column : VirtualColumn)
    (function : ColumnFunction) (arguments : List Column) :
    view.compute path column function arguments =
      (record (.called column view.visibleCount arguments) >>= fun _ =>
        settle path (view.applied column function arguments)) := by
  rw [View.compute_eq, h.resolvedCount_eq, applied]

theorem Invariant.agrees_compute (h : view.Invariant) (path : List String)
    (column : VirtualColumn) (function : ColumnFunction) (arguments : List Column) :
    view.Agrees stuck (view.compute path column function arguments)
      (view.applied column function arguments) refused := by
  rw [h.compute_eq]
  exact agrees_record _ (agrees_settle path _)

theorem Invariant.agrees_remembered_gather (h : view.Invariant) (path : List String) {name : String}
    (hn : view.virtualColumn? name = none) :
    view.Agrees stuck (remembered name (view.gather path name)) (view.meaning name) refused := by
  refine Agrees.remembered ?_
  rw [h.meaning_of_not_virtual hn]
  exact h.agrees_gather path name

theorem Invariant.agrees_resolveAt_of_not_virtual (h : view.Invariant) (room : Nat)
    (path : List String) {name : String} (hn : view.virtualColumn? name = none) :
    view.Agrees stuck (view.resolveAt room path name) (view.meaning name) refused := by
  rw [resolveAt, hn]
  exact h.agrees_remembered_gather path hn

/-- **Induction on how a column is resolved**: it is gathered, or the request fails before its function
is found, or its sources are resolved on a longer path and with less room. -/
theorem resolveAt_induction {motive : Nat → List String → String → Resolve Column → Prop}
    (gather : ∀ room path name, view.virtualColumn? name = none →
      motive room path name (remembered name (view.gather path name)))
    (cyclic : ∀ room path name column, view.virtualColumn? name = some column → name ∈ path →
      motive room path name
        (remembered name (fail (.cyclicDefinition (path.dropWhile (· ≠ name) ++ [name])))))
    (tooDeep : ∀ path name column, view.virtualColumn? name = some column → name ∉ path →
      motive 0 path name (remembered name (fail (.definitionTooDeep name view.maxDepth))))
    (unknown : ∀ room path name column, view.virtualColumn? name = some column → name ∉ path →
      view.functions.get? column.function = none →
      motive (room + 1) path name (remembered name (fail (.unknownFunction column.function))))
    (compute : ∀ room path name column function, view.virtualColumn? name = some column →
      name ∉ path → view.functions.get? column.function = some function →
      (∀ source ∈ column.sources,
        motive room (path ++ [name]) source (view.resolveAt room (path ++ [name]) source)) →
      motive (room + 1) path name (remembered name (record (.resolving path column) >>= fun _ =>
        column.sources.mapM (view.resolveAt room (path ++ [name])) >>= fun arguments =>
          view.compute path column function arguments)))
    (room : Nat) (path : List String) (name : String) :
    motive room path name (view.resolveAt room path name) := by
  induction room generalizing path name with
  | zero =>
      rw [resolveAt]
      cases hc : view.virtualColumn? name with
      | none => exact gather 0 path name hc
      | some column =>
          dsimp only
          split
          next hp => exact cyclic 0 path name column hc hp
          next hp => exact tooDeep path name column hc hp
  | succ room ih =>
      rw [resolveAt]
      cases hc : view.virtualColumn? name with
      | none => exact gather (room + 1) path name hc
      | some column =>
          dsimp only
          split
          next hp => exact cyclic (room + 1) path name column hc hp
          next hp =>
            cases hf : view.functions.get? column.function with
            | none => exact unknown room path name column hc hp hf
            | some function =>
                exact compute room path name column function hc hp hf fun source _ =>
                  ih (path ++ [name]) source

/-- **Resolving a column agrees with its meaning.** -/
theorem Invariant.agrees_resolveAt (h : view.Invariant) (room : Nat) (path : List String)
    (name : String) :
    view.Agrees stuck (view.resolveAt room path name) (view.meaning name)
      (view.Refused room path name) := by
  induction room, path, name using view.resolveAt_induction with
  | gather room path name hc => exact h.agrees_remembered_gather path hc
  | cyclic room path name column hc hp =>
      exact Agrees.remembered (agrees_fail (.inr (.cyclic hp .refl)))
  | tooDeep path name column hc =>
      -- no room is left: the chain is this column alone
      have hchain : view.VirtualChain [name] := ⟨by simpa using ⟨column, hc⟩, .singleton name⟩
      exact Agrees.remembered (agrees_fail (.inr (.tooDeep hchain rfl rfl)))
  | unknown room path name column hc _ hf =>
      refine Agrees.remembered (agrees_fail (.inl ?_))
      rw [h.meaning_of_virtual hc, combined, hf]
  | compute room path name column function hc _ hf ih =>
      refine Agrees.remembered ?_
      rw [h.meaning_of_virtual hc, combined, hf]
      refine agrees_record _ (.bind (.mapM fun source hs => ?_) fun arguments _ => ?_)
      · -- a source, on a longer path and with less room
        exact (ih source hs).mono fun error hr => h.refused_of_source ⟨column, hc, hs⟩ hr
      · exact h.agrees_compute path column function arguments

theorem Invariant.agrees_resolve (h : view.Invariant) (name : String) :
    view.Agrees stuck (view.resolve name) (view.meaning name)
      (view.Refused (view.maxDepth - stuck.length) stuck name) := by
  intro resolver hm hs
  show view.Answers stuck _ _
    (view.resolveAt (view.maxDepth - resolver.stuck.length) resolver.stuck name resolver)
  rw [hs]
  exact h.agrees_resolveAt _ _ _ resolver hm hs

/-- A column that is not virtual is never refused. -/
theorem Invariant.agrees_resolve_of_not_virtual (h : view.Invariant) {name : String}
    (hn : view.virtualColumn? name = none) :
    view.Agrees stuck (view.resolve name) (view.meaning name) refused :=
  fun resolver hm hs => h.agrees_resolveAt_of_not_virtual _ resolver.stuck hn resolver hm hs

end Resolving

/-! ### Fresh resolvers -/

theorem run_of_ok {α : Type} {action : Resolve α} {value : α} {next : Resolver}
    (h : action .fresh = .ok value next) : (action.run .fresh).1 = ⟨.ok value, next.journal⟩ := by
  have hrun : EStateM.run action { Resolver.fresh with journal := [] } = .ok value next := h
  rw [Resolve.run, hrun]

theorem run_of_error {α : Type} {action : Resolve α} {cause : Abort EvalError} {next : Resolver}
    (h : action .fresh = .error cause next) :
    (action.run .fresh).1 = ⟨.error cause, next.journal⟩ := by
  have hrun : EStateM.run action { Resolver.fresh with journal := [] } = .error cause next := h
  rw [Resolve.run, hrun]

/-- A run that gives a value. -/
theorem exists_of_run_eq_ok {α : Type} {action : Resolve α} {value : α}
    (h : (action.run .fresh).1.outcome = .ok value) : ∃ next, action .fresh = .ok value next := by
  cases hr : action .fresh with
  | ok found next =>
      rw [run_of_ok hr] at h
      exact ⟨next, by rw [Except.ok.inj h]⟩
  | error cause next =>
      rw [run_of_error hr] at h
      cases h

/-- A run that gives none. -/
theorem exists_of_run_eq_error {α : Type} {action : Resolve α} {cause : Abort EvalError}
    (h : (action.run .fresh).1.outcome = .error cause) :
    ∃ next, action .fresh = .error cause next := by
  cases hr : action .fresh with
  | ok found next =>
      rw [run_of_ok hr] at h
      cases h
  | error broken next =>
      rw [run_of_error hr] at h
      exact ⟨next, by rw [Except.error.inj h]⟩

/-- **A computation that says what is meant** ends as is meant, or is refused. -/
theorem Answers.run {α : Type} {view : View} {action : Resolve α} {meant : Outcome EvalError α}
    {refused : EvalError → Prop} (h : view.Answers [] meant refused (action .fresh)) :
    (action.run .fresh).1.outcome = meant ∨
      ∃ error, (action.run .fresh).1.outcome = .error (.error error) ∧ refused error := by
  rw [Resolve.run]
  change view.Answers [] meant refused (EStateM.run action { Resolver.fresh with journal := [] }) at h
  generalize EStateM.run action { Resolver.fresh with journal := [] } = result at h ⊢
  cases h with
  | ok _ _ h => exact .inl h.symm
  | error _ _ h => exact h.imp Eq.symm fun hr => ⟨_, rfl, hr⟩
  | fault _ h => exact .inl h.symm

theorem Agrees.run {α : Type} {view : View} {action : Resolve α} {meant : Outcome EvalError α}
    {refused : EvalError → Prop} (h : view.Agrees [] action meant refused) :
    (action.run .fresh).1.outcome = meant ∨
      ∃ error, (action.run .fresh).1.outcome = .error (.error error) ∧ refused error :=
  (h .fresh view.memoSound_fresh rfl).run

end RowSieve.View

import Mathlib.Data.List.Chain
import RowSieve.Proofs.View.Memory

/-!
# The first way to a column

Columns are resolved in the order in which they are asked for, the sources of a virtual column in
the order in which it lists them, and what is remembered is not looked for again.  So each virtual
column that is needed is reached on one way, the first that leads to it.

* `View.FirstWay`: the way on which a column is reached first, and
  `View.Invariant.existsUnique_firstWay`: there is exactly one.
* `View.FirstWay.length_le`: if columns are found, the first ways are no longer than the room there
  was.
* `View.firstWay_of_tooDeep`: an error of depth comes at the end of a first way that is longer by
  one.
-/

namespace RowSieve.View

open Resolve
open Relation (ReflTransGen)

/-! ### First ways -/

/-- **The first way to a column**, when columns are asked for from left to right: down a chain of
virtual columns, each a direct source of the one before, past the columns that do not need it. -/
inductive FirstWay (view : View) (deepest : String) : List String → List String → Prop where
  | here {later : List String} {column : VirtualColumn}
      (hv : view.virtualColumn? deepest = some column) :
      FirstWay view deepest (deepest :: later) [deepest]
  | down {name : String} {later way : List String} {column : VirtualColumn}
      (hv : view.virtualColumn? name = some column)
      (hw : FirstWay view deepest column.sources way) :
      FirstWay view deepest (name :: later) (name :: way)
  | past {earlier : String} {later way : List String}
      (hn : ¬ ReflTransGen view.DirectSource earlier deepest)
      (hw : FirstWay view deepest later way) : FirstWay view deepest (earlier :: later) way

section FirstWays

variable {view : View} {deepest : String} {names way : List String}

/-- A way starts from one of the columns asked for, which needs the column that it leads to. -/
theorem FirstWay.exists_head (h : view.FirstWay deepest names way) :
    ∃ name ∈ names, way.head? = some name ∧ ReflTransGen view.DirectSource name deepest := by
  induction h with
  | here => exact ⟨deepest, List.mem_cons_self, rfl, .refl⟩
  | down hv _ ih =>
      obtain ⟨source, hs, -, hn⟩ := ih
      exact ⟨_, List.mem_cons_self, rfl, .head ⟨_, hv, hs⟩ hn⟩
  | past _ _ ih =>
      obtain ⟨name, hm, hh, hn⟩ := ih
      exact ⟨name, List.mem_cons_of_mem _ hm, hh, hn⟩

/-- **A first way is a chain** of virtual columns that ends with the column it leads to. -/
theorem FirstWay.virtualChain (h : view.FirstWay deepest names way) :
    view.VirtualChain way ∧ way.getLast? = some deepest := by
  induction h with
  | here hv => exact ⟨⟨by simpa using ⟨_, hv⟩, .singleton deepest⟩, rfl⟩
  | @down name later way column hv hw ih =>
      obtain ⟨⟨hvirtual, hchain⟩, hlast⟩ := ih
      obtain ⟨source, hs, hhead, -⟩ := hw.exists_head
      refine ⟨⟨List.forall_mem_cons.mpr ⟨⟨column, hv⟩, hvirtual⟩, ?_⟩, ?_⟩
      · refine List.isChain_cons.mpr ⟨fun next hn => ?_, hchain⟩
        obtain rfl := Option.some.inj (hhead.symm.trans hn)
        exact ⟨column, hv, hs⟩
      · rw [List.getLast?_cons, hlast]
        rfl
  | past _ _ ih => exact ih

theorem firstWay_of_virtual {column : VirtualColumn} {name : String}
    (hv : view.virtualColumn? name = some column) (h : view.FirstWay deepest [name] way) :
    way = [name] ∨ ∃ rest, way = name :: rest ∧ view.FirstWay deepest column.sources rest := by
  cases h with
  | here => exact .inl rfl
  | down hv' hw =>
      obtain rfl := Option.some.inj (hv.symm.trans hv')
      exact .inr ⟨_, rfl, hw⟩
  | past _ hw => cases hw

theorem FirstWay.append (h : view.FirstWay deepest names way) (later : List String) :
    view.FirstWay deepest (names ++ later) way := by
  induction h with
  | here hv => exact .here hv
  | down hv hw _ => exact .down hv hw
  | past hn _ ih => exact .past hn ih

/-- If there is a way from each column that needs the deepest, there is one from a list of columns,
some of which do. -/
theorem exists_firstWay_of_forall
    (h : ∀ name ∈ names, ReflTransGen view.DirectSource name deepest →
      ∃ way, view.FirstWay deepest [name] way)
    (hn : ∃ name ∈ names, ReflTransGen view.DirectSource name deepest) :
    ∃ way, view.FirstWay deepest names way := by
  induction names with
  | nil => simp at hn
  | cons name names ih =>
      by_cases hfirst : ReflTransGen view.DirectSource name deepest
      · obtain ⟨way, hw⟩ := h name List.mem_cons_self hfirst
        exact ⟨way, hw.append names⟩
      · obtain ⟨other, hm, ho⟩ := hn
        have hother : other ∈ names := (List.mem_cons.mp hm).resolve_left fun he =>
          hfirst (he ▸ ho)
        obtain ⟨way, hw⟩ :=
          ih (fun name hm => h name (List.mem_cons_of_mem _ hm)) ⟨other, hother, ho⟩
        exact ⟨way, .past hfirst hw⟩

theorem Invariant.exists_firstWay (h : view.Invariant) {column : VirtualColumn}
    (hv : view.virtualColumn? deepest = some column) (name : String)
    (hn : ReflTransGen view.DirectSource name deepest) :
    ∃ way, view.FirstWay deepest [name] way := by
  induction name using h.induction with
  | step name ih =>
      cases hn using ReflTransGen.head_induction_on with
      | refl => exact ⟨_, .here hv⟩
      | head hd hrest =>
          obtain ⟨declared, hc, hs⟩ := hd
          obtain ⟨way, hw⟩ := exists_firstWay_of_forall
            (fun source hs hr => ih source ⟨declared, hc, hs⟩ hr) ⟨_, hs, hrest⟩
          exact ⟨_, .down hc hw⟩

theorem Invariant.firstWay_unique (h : view.Invariant) {other : List String}
    (hw : view.FirstWay deepest names way) (ho : view.FirstWay deepest names other) :
    way = other := by
  -- a column does not need itself, so the ways part nowhere
  have hacyclic : ∀ {column : VirtualColumn} {way : List String},
      view.virtualColumn? deepest = some column →
        ¬ view.FirstWay deepest column.sources way := by
    intro column way hv hs
    obtain ⟨source, hm, -, hn⟩ := hs.exists_head
    exact h.not_transGen_self ⟨column, hv, hm⟩ hn
  have hneeds : ∀ {name : String} {column : VirtualColumn} {way : List String},
      view.virtualColumn? name = some column → view.FirstWay deepest column.sources way →
        ReflTransGen view.DirectSource name deepest := by
    intro name column way hv hs
    obtain ⟨source, hm, -, hn⟩ := hs.exists_head
    exact .head ⟨column, hv, hm⟩ hn
  induction hw generalizing other with
  | here hv =>
      cases ho with
      | here => rfl
      | down hv' hs => exact absurd hs (hacyclic hv')
      | past hn => exact absurd .refl hn
  | down hv hs ih =>
      cases ho with
      | here => exact absurd hs (hacyclic hv)
      | down hv' hs' =>
          obtain rfl := Option.some.inj (hv.symm.trans hv')
          rw [ih hs']
      | past hn => exact absurd (hneeds hv hs) hn
  | past hn _ ih =>
      cases ho with
      | here => exact absurd .refl hn
      | down hv' hs' => exact absurd (hneeds hv' hs') hn
      | past _ hs' => exact ih hs'

/-- **There is exactly one first way** from a column to a virtual one that it needs. -/
theorem Invariant.existsUnique_firstWay (h : view.Invariant) {column : VirtualColumn}
    (hv : view.virtualColumn? deepest = some column) {name : String}
    (hn : ReflTransGen view.DirectSource name deepest) :
    ∃! way, view.FirstWay deepest [name] way := by
  obtain ⟨way, hw⟩ := h.exists_firstWay hv name hn
  exact ⟨way, hw, fun other ho => h.firstWay_unique ho hw⟩

/-- The columns come after their virtual sources, some of which have been seen before. -/
def AfterSources (view : View) (seen : List String) : List String → Prop
  | [] => True
  | name :: names =>
    (∀ source, view.DirectSource name source →
      view.virtualColumn? source = none ∨ source ∈ seen) ∧ view.AfterSources (name :: seen) names

/-- **Columns that come after their sources** are found without going down any further. -/
theorem FirstWay.length_le_one (h : view.FirstWay deepest names way) {seen : List String}
    (hs : view.AfterSources seen names)
    (hn : ∀ name ∈ seen, ¬ ReflTransGen view.DirectSource name deepest) : way.length ≤ 1 := by
  induction h generalizing seen with
  | here => exact Nat.le_refl 1
  | @down name later way declared hv hw =>
      exfalso
      obtain ⟨source, hm, -, hneeds⟩ := hw.exists_head
      rcases hs.1 source ⟨declared, hv, hm⟩ with hstored | hseen
      · -- a stored column needs itself alone, and the deepest is virtual
        cases hneeds using ReflTransGen.head_induction_on with
        | refl =>
            obtain ⟨⟨hvirtual, -⟩, hlast⟩ := hw.virtualChain
            obtain ⟨column, hc⟩ := hvirtual deepest (List.mem_of_getLast? hlast)
            cases hstored.symm.trans hc
        | head hd _ =>
            obtain ⟨column, hc, -⟩ := hd
            cases hstored.symm.trans hc
      · exact hn source hseen hneeds
  | past hn' _ ih => exact ih hs.2 (List.forall_mem_cons.mpr ⟨hn', hn⟩)

theorem directSource_congr {other : View} (hv : other.virtualColumn? = view.virtualColumn?) :
    other.DirectSource = view.DirectSource := by
  funext name source
  rw [DirectSource, DirectSource, hv]

/-- First ways are a matter of the declarations. -/
theorem FirstWay.congr {other : View} (hv : other.virtualColumn? = view.virtualColumn?)
    (h : view.FirstWay deepest names way) : other.FirstWay deepest names way := by
  have hd := directSource_congr hv
  induction h with
  | here hc => exact .here (hv ▸ hc)
  | down hc _ ih => exact .down (hv ▸ hc) ih
  | past hn _ ih => exact .past (hd ▸ hn) ih

end FirstWays

/-! ### What is looked for -/

section Resolving

variable {view : View} {resolver next : Resolver} {room : Nat} {path : List String}
  {name deepest : String} {column : VirtualColumn} {limit : Nat}

theorem VirtualChain.needs {chain : List String} (hc : view.VirtualChain (name :: chain))
    (hl : (name :: chain).getLast? = some deepest) :
    ReflTransGen view.DirectSource name deepest := by
  rw [List.getLast?_eq_some_getLast (List.cons_ne_nil name chain)] at hl
  exact List.relationReflTransGen_of_exists_isChain_cons chain hc.2 (Option.some.inj hl)

theorem Closed.of_needs {known : String → Prop} (hc : view.Closed known) (hk : known name)
    (hn : ReflTransGen view.DirectSource name deepest) : known deepest := by
  induction hn with
  | refl => exact hk
  | tail _ hd ih => exact hc _ _ ih hd

/-- **Resolving a column remembers what it needs**, and nothing else. -/
theorem knows_of_resolveAt (hc : view.Closed resolver.Knows) {found : Column}
    (hr : view.resolveAt room path name resolver = .ok found next) :
    view.Closed next.Knows ∧ ∀ other, next.Knows other ↔
      resolver.Knows other ∨ ReflTransGen view.DirectSource name other := by
  have hmost : view.Closed fun other =>
      resolver.Knows other ∨ ReflTransGen view.DirectSource name other :=
    fun other source ho hd => ho.imp (fun hk => hc other source hk hd) fun hn => hn.tail hd
  have hf := fills_resolveAt hmost room path (.inr .refl) resolver.Knows resolver
    ⟨hc, fun _ => id, fun _ => .inl⟩
  rw [hr] at hf
  cases hf with
  | ok h =>
      refine ⟨h.closed, fun other => ⟨h.most other, ?_⟩⟩
      rintro (hk | hn)
      · exact h.least other (.inr hk)
      · exact h.closed.of_needs (h.least name (.inl (List.mem_singleton_self name))) hn

theorem lookup_eq_none (hk : ¬ resolver.Knows name) : resolver.memo.lookup name = none :=
  Option.eq_none_iff_forall_ne_some.mpr fun column hc => hk ⟨column, hc⟩

theorem exists_of_remembered {compute : Resolve Column} {found : Column}
    (hk : ¬ resolver.Knows name) (hr : remembered name compute resolver = .ok found next) :
    ∃ middle, compute resolver = .ok found middle := by
  rw [remembered_of_none (lookup_eq_none hk)] at hr
  cases hc : compute resolver with
  | ok value middle =>
      rw [hc] at hr
      cases hr
      exact ⟨middle, rfl⟩
  | error cause middle =>
      rw [hc] at hr
      cases hr

theorem not_knows_of_remembered {compute : Resolve Column} {cause : Abort EvalError}
    (hr : remembered name compute resolver = .error cause next) :
    ¬ resolver.Knows name ∧ compute resolver = .error cause next := by
  cases hl : resolver.memo.lookup name with
  | some column =>
      rw [remembered_of_some hl] at hr
      cases hr
  | none =>
      have hk : ¬ resolver.Knows name := by
        rintro ⟨column, hc⟩
        cases hl.symm.trans hc
      refine ⟨hk, ?_⟩
      rw [remembered_of_none hl] at hr
      cases hc : compute resolver with
      | ok value middle =>
          rw [hc] at hr
          cases hr
      | error broken middle =>
          rw [hc] at hr
          exact hr

/-- A virtual column that is found, and was not known, has had its sources resolved with less
room. -/
theorem sources_of_resolveAt (hv : view.virtualColumn? name = some column)
    (hk : ¬ resolver.Knows name) {found : Column}
    (hr : view.resolveAt room path name resolver = .ok found next) :
    ∃ below noted arguments middle, room = below + 1 ∧ noted.memo = resolver.memo ∧
      column.sources.mapM (view.resolveAt below (path ++ [name])) noted =
        .ok arguments middle := by
  have hfail : ∀ error, remembered name (fail error) resolver ≠ .ok found next := by
    intro error hr
    cases (exists_of_remembered hk hr).choose_spec
  cases room with
  | zero =>
      rw [resolveAt, hv] at hr
      dsimp only at hr
      split at hr
      next => exact absurd hr (hfail _)
      next => exact absurd hr (hfail _)
  | succ below =>
      rw [resolveAt, hv] at hr
      dsimp only at hr
      split at hr
      next => exact absurd hr (hfail _)
      next =>
        split at hr
        next => exact absurd hr (hfail _)
        next =>
          obtain ⟨middle, hr⟩ := exists_of_remembered hk hr
          obtain ⟨_, noted, hnoted, hr⟩ := bind_run_eq_ok.mp hr
          have hmemo : noted.memo = resolver.memo := by
            cases hnoted
            rfl
          obtain ⟨arguments, after, hs, -⟩ := bind_run_eq_ok.mp hr
          exact ⟨below, noted, arguments, after, rfl, hmemo, hs⟩

theorem settle_ne_tooDeep {outcome : Outcome EvalError Column}
    (ho : outcome ≠ .error (.error (.definitionTooDeep deepest limit))) :
    settle path outcome resolver ≠ .error (.error (.definitionTooDeep deepest limit)) next := by
  rcases outcome with (error | broken) | value
  · intro hr
    cases hr
    exact ho rfl
  · nofun
  · nofun

theorem gather_ne_tooDeep :
    view.gather path name resolver ≠
      .error (.error (.definitionTooDeep deepest limit)) next := by
  rw [gather]
  cases view.table.get? name with
  | none =>
      intro hr
      cases hr
  | some stored =>
      dsimp only
      cases view.mask with
      | none =>
          intro hr
          cases hr
      | some mask => exact settle_ne_tooDeep Outcome.ofFaulty_ne_error

theorem compute_ne_tooDeep {function : ColumnFunction} {arguments : List Column} :
    view.compute path column function arguments resolver ≠
      .error (.error (.definitionTooDeep deepest limit)) next := by
  rw [compute_eq]
  refine settle_ne_tooDeep fun ha => ?_
  rcases Invariant.appliedOver_eq_error ha with ⟨_, hne⟩ | ⟨_, hne⟩ <;> cases hne

/-! ### The limit and the first ways -/

/-- **Columns that are found** have first ways no longer than the room there was. -/
theorem FirstWay.length_le {names way : List String} (hw : view.FirstWay deepest names way)
    (hc : view.Closed resolver.Knows) (hk : ¬ resolver.Knows deepest) {found : List Column}
    (hr : names.mapM (view.resolveAt room path) resolver = .ok found next) : way.length ≤ room := by
  induction hw generalizing room path resolver found next with
  | here hv =>
      rw [List.mapM_cons, bind_run_eq_ok] at hr
      obtain ⟨_, _, hfirst, -⟩ := hr
      obtain ⟨below, -, -, -, rfl, -⟩ := sources_of_resolveAt hv hk hfirst
      exact Nat.succ_le_succ (Nat.zero_le below)
  | @down name later way declared hv hs ih =>
      rw [List.mapM_cons, bind_run_eq_ok] at hr
      obtain ⟨_, _, hfirst, -⟩ := hr
      -- if the column were known, so would be what it needs
      have hname : ¬ resolver.Knows name := by
        intro hname
        obtain ⟨source, hm, -, hn⟩ := hs.exists_head
        exact hk (hc.of_needs hname (.head ⟨declared, hv, hm⟩ hn))
      obtain ⟨below, noted, _, _, rfl, hmemo, hsources⟩ := sources_of_resolveAt hv hname hfirst
      have hknows := Resolver.knows_of_memo_eq hmemo
      exact Nat.succ_le_succ (ih (hknows ▸ hc) (hknows ▸ hk) hsources)
  | past hn _ ih =>
      rw [List.mapM_cons, bind_run_eq_ok] at hr
      obtain ⟨_, middle, hfirst, hr⟩ := hr
      obtain ⟨hclosed, hknows⟩ := knows_of_resolveAt hc hfirst
      obtain ⟨_, _, hlater, -⟩ := bind_run_eq_ok.mp hr
      exact ih hclosed (fun hmiddle => ((hknows _).mp hmiddle).elim hk hn) hlater

/-- If an error of depth from one column comes at the end of a first way, so does one from
several. -/
theorem firstWay_of_forall {names : List String}
    (h : ∀ name ∈ names, ∀ resolver next, view.Closed resolver.Knows →
      view.resolveAt room path name resolver =
          .error (.error (.definitionTooDeep deepest limit)) next →
        ¬ resolver.Knows deepest ∧
          ∃ way, view.FirstWay deepest [name] way ∧ way.length = room + 1)
    (hc : view.Closed resolver.Knows)
    (hr : names.mapM (view.resolveAt room path) resolver =
      .error (.error (.definitionTooDeep deepest limit)) next) :
    ¬ resolver.Knows deepest ∧
      ∃ way, view.FirstWay deepest names way ∧ way.length = room + 1 := by
  induction names generalizing resolver with
  | nil => cases hr
  | cons name names ih =>
      obtain ⟨hname, hnames⟩ := List.forall_mem_cons.mp h
      rw [List.mapM_cons, bind_run_eq_error] at hr
      rcases hr with hfirst | ⟨_, middle, hfirst, hr⟩
      · obtain ⟨hk, way, hw, hl⟩ := hname resolver next hc hfirst
        exact ⟨hk, way, hw.append names, hl⟩
      · obtain ⟨hclosed, hknows⟩ := knows_of_resolveAt hc hfirst
        rcases bind_run_eq_error.mp hr with hlater | ⟨_, _, -, hpure⟩
        · obtain ⟨hk, way, hw, hl⟩ := ih hnames hclosed hlater
          -- what is not known now was not known before, and the first column does not need it
          obtain ⟨hk, hn⟩ := not_or.mp fun ho => hk ((hknows _).mpr ho)
          exact ⟨hk, way, .past hn hw, hl⟩
        · cases hpure

theorem firstWay_of_resolveAt (hc : view.Closed resolver.Knows)
    (hr : view.resolveAt room path name resolver =
      .error (.error (.definitionTooDeep deepest limit)) next) :
    ¬ resolver.Knows deepest ∧
      ∃ way, view.FirstWay deepest [name] way ∧ way.length = room + 1 := by
  induction room, path, name using view.resolveAt_induction generalizing resolver next with
  | gather room path name _ => exact absurd (not_knows_of_remembered hr).2 gather_ne_tooDeep
  | cyclic room path name column _ _ => cases (not_knows_of_remembered hr).2
  | tooDeep path name column hv =>
      obtain ⟨hk, hr⟩ := not_knows_of_remembered hr
      cases hr
      exact ⟨hk, _, .here hv, rfl⟩
  | unknown room path name column _ _ => cases (not_knows_of_remembered hr).2
  | compute room path name column function hv _ _ ih =>
      obtain ⟨-, hr⟩ := not_knows_of_remembered hr
      rcases bind_run_eq_error.mp hr with hnoted | ⟨_, noted, hnoted, hr⟩
      · cases hnoted
      have hknows : noted.Knows = resolver.Knows := by
        cases hnoted
        rfl
      rcases bind_run_eq_error.mp hr with hs | ⟨_, _, -, hcompute⟩
      · obtain ⟨hk, way, hw, hl⟩ := firstWay_of_forall
          (fun source hm _ _ hclosed hsource => ih source hm hclosed hsource) (hknows ▸ hc) hs
        exact ⟨hknows ▸ hk, _, .down hv hw, congrArg (· + 1) hl⟩
      · exact absurd hcompute compute_ne_tooDeep

/-- **An error of depth** comes at the end of a first way that is longer by one than there was
room. -/
theorem firstWay_of_tooDeep {names : List String} (hc : view.Closed resolver.Knows)
    (hr : names.mapM (view.resolveAt room path) resolver =
      .error (.error (.definitionTooDeep deepest limit)) next) :
    ∃ way, view.FirstWay deepest names way ∧ way.length = room + 1 :=
  (firstWay_of_forall (fun _ _ _ _ => firstWay_of_resolveAt) hc hr).2

end Resolving

end RowSieve.View

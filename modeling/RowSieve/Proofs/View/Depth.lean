import RowSieve.Proofs.Predicate.Schema
import RowSieve.Proofs.View.Extraction
import RowSieve.Proofs.View.FirstWay
import RowSieve.Proofs.View.Leaves

/-!
# The limit of depth

How deep virtual columns may nest is limited, but only the first way to a column counts: a longer
way to a column that has been found is not gone.

* `View.Reachable.tooDeep_genuine`: an error of depth names the end of a chain of virtual columns
  that is longer than the limit by one.
* `View.Reachable.depth_enforced`: a request succeeds only if no first way is longer than the limit,
  and is answered with what the column means if none is.
* `View.Invariant.exists_filter_iff`: narrowing, too, depends on the first ways and otherwise on
  what the columns mean.
-/

namespace RowSieve.View

open Resolve
open Relation (ReflTransGen)

/-! ### Errors of depth -/

/-- **An error of depth is genuine.**  It names the limit, and a virtual column at the end of a
chain of virtual columns that is longer than the limit by one.  So no request for a column without
such a chain ends in one. -/
theorem Reachable.tooDeep_genuine {view : View} (h : view.Reachable) (name : String) :
    (∀ column limit,
        (view.evaluate name).outcome = .error (.error (.definitionTooDeep column limit)) →
          limit = view.maxDepth ∧ ∃ chain, view.VirtualChain (name :: chain) ∧
            (name :: chain).getLast? = some column ∧ (name :: chain).length = limit + 1) ∧
      ((∀ chain, view.VirtualChain (name :: chain) → (name :: chain).length ≤ view.maxDepth) →
        ∀ column limit,
          (view.evaluate name).outcome ≠ .error (.error (.definitionTooDeep column limit))) := by
  have hi := h.invariant
  have hgenuine : ∀ column limit,
      (view.evaluate name).outcome = .error (.error (.definitionTooDeep column limit)) →
        limit = view.maxDepth ∧ ∃ chain, view.VirtualChain (name :: chain) ∧
          (name :: chain).getLast? = some column ∧ (name :: chain).length = limit + 1 := by
    intro column limit he
    rcases hi.evaluate_eq name with hm | ⟨error, hr, hrefused⟩
    · -- what a column means knows nothing of depth
      rcases hi.meaning_eq_error (hm.symm.trans he) with
        ⟨hne, -⟩ | ⟨_, _, ⟨_, hne⟩ | ⟨_, _, hne⟩⟩ <;> cases hne
    · cases hr.symm.trans he
      cases hrefused with
      | tooDeep hc hl hroom => exact ⟨rfl, _, hc, hl, congrArg (· + 1) hroom⟩
  refine ⟨hgenuine, fun hshort column limit he => ?_⟩
  obtain ⟨rfl, chain, hc, -, hl⟩ := hgenuine column limit he
  exact absurd (hl ▸ hshort chain hc) (Nat.not_succ_le_self _)

/-- The lengths are two virtual columns deep: too deep for a limit of one, but not for a limit of
two. -/
theorem tooDeep_shallow :
    shallow.Reachable ∧ capitals.Reachable ∧
      (∃ chain, shallow.VirtualChain ("length" :: chain) ∧
        ("length" :: chain).getLast? = some "capitals" ∧ ("length" :: chain).length = 2) ∧
      ∀ column limit, (capitals.evaluate "length").outcome ≠
        .error (.error (.definitionTooDeep column limit)) := by
  obtain ⟨-, chain, hchain⟩ :=
    (reachable_shallow.tooDeep_genuine "length").1 _ _ evaluate_length_shallow
  exact ⟨reachable_shallow, reachable_capitals, ⟨chain, hchain⟩,
    (reachable_capitals.tooDeep_genuine "length").2 fun chain hc =>
      reachable_capitals.invariant.length_le_of_virtualChain hc⟩

/-! ### Requests -/

section Requests

variable {view : View} {resolver next : Resolver} {name deepest : String} {names way : List String}

/-- **Columns are found one after another** if each of them means something and no first way is too
long. -/
theorem Invariant.exists_mapM_iff (h : view.Invariant) :
    (∃ found next,
        names.mapM (view.resolveAt view.maxDepth []) .fresh = .ok found next) ↔
      (∀ name ∈ names, ∃ column, view.meaning name = .ok column) ∧
        ∀ deepest way, view.FirstWay deepest names way → way.length ≤ view.maxDepth := by
  have ha : view.Answers [] (names.mapM view.meaning)
      (fun error => ∃ name, view.Refused view.maxDepth [] name error)
      (names.mapM (view.resolveAt view.maxDepth []) .fresh) :=
    Agrees.mapM (fun name _ => (h.agrees_resolveAt view.maxDepth [] name).mono
      fun _ hr => ⟨name, hr⟩) .fresh view.memoSound_fresh rfl
  constructor
  · rintro ⟨found, next, hr⟩
    refine ⟨fun name hn => ?_, fun deepest way hw => ?_⟩
    · rw [hr] at ha
      cases ha with
      | ok _ _ hm => exact Outcome.exists_of_mapM hm hn
    · exact hw.length_le view.consistent_fresh.closed (fun hk => nomatch hk.choose_spec) hr
  · rintro ⟨hm, hshort⟩
    cases hr : names.mapM (view.resolveAt view.maxDepth []) .fresh with
    | ok found next => exact ⟨found, next, rfl⟩
    | error cause next =>
        exfalso
        have hmeant : ∀ cause, names.mapM view.meaning ≠ .error cause := by
          intro cause he
          obtain ⟨name, hn, he⟩ := Outcome.mapM_eq_error he
          obtain ⟨column, hc⟩ := hm name hn
          cases hc.symm.trans he
        rw [hr] at ha
        cases ha with
        | fault _ he => exact hmeant _ he
        | error _ _ he =>
            rcases he with he | ⟨name, hrefused⟩
            · exact hmeant _ he
            · obtain ⟨_, deepest, rfl, -⟩ := refused_of_fresh hrefused
              obtain ⟨way, hw, hl⟩ := firstWay_of_tooDeep view.consistent_fresh.closed hr
              exact absurd (hl ▸ hshort deepest way hw) (Nat.not_succ_le_self _)

/-- Where no first way is too long, a column is what it means. -/
theorem Invariant.evaluate_of_firstWay (h : view.Invariant)
    (hshort : ∀ deepest way, view.FirstWay deepest [name] way → way.length ≤ view.maxDepth) :
    (view.evaluate name).outcome = view.meaning name := by
  rcases h.evaluate_eq name with hm | ⟨error, he, hrefused⟩
  · exact hm
  · obtain ⟨_, deepest, rfl, -⟩ := refused_of_fresh hrefused
    obtain ⟨next, hr⟩ := exists_of_run_eq_error he
    change view.resolveAt view.maxDepth [] name .fresh = _ at hr
    obtain ⟨-, way, hw, hl⟩ := firstWay_of_resolveAt view.consistent_fresh.closed hr
    exact absurd (hl ▸ hshort deepest way hw) (Nat.not_succ_le_self _)

/-- Where a column is found, no first way is too long. -/
theorem length_le_of_evaluate (hw : view.FirstWay deepest [name] way) {column : Column}
    (he : (view.evaluate name).outcome = .ok column) : way.length ≤ view.maxDepth := by
  obtain ⟨next, hr⟩ := exists_of_run_eq_ok he
  change view.resolveAt view.maxDepth [] name .fresh = _ at hr
  have hlist : [name].mapM (view.resolveAt view.maxDepth []) .fresh = .ok [column] next := by
    rw [List.mapM_cons]
    exact bind_of_ok hr
  exact hw.length_le view.consistent_fresh.closed (fun hk => nomatch hk.choose_spec) hlist

/-- **The limit of depth is enforced on first ways.**  A request does not succeed if the first way
to some virtual column is longer than the limit; if none is, it is answered with what the column
means, whatever other ways there are.  There is exactly one first way to each virtual column that
is needed. -/
theorem Reachable.depth_enforced (h : view.Reachable) (name : String) :
    (∀ deepest way, view.FirstWay deepest [name] way → view.maxDepth < way.length →
        ∀ column, (view.evaluate name).outcome ≠ .ok column) ∧
      ((∀ deepest way, view.FirstWay deepest [name] way → way.length ≤ view.maxDepth) →
        (view.evaluate name).outcome = view.meaning name) ∧
      ∀ chain deepest, view.VirtualChain (name :: chain) →
        (name :: chain).getLast? = some deepest →
          ∃! way, view.FirstWay deepest [name] way ∧ view.VirtualChain way ∧
            way.head? = some name ∧ way.getLast? = some deepest := by
  have hi := h.invariant
  refine ⟨fun deepest way hw hlong column he => ?_, hi.evaluate_of_firstWay,
    fun chain deepest hc hl => ?_⟩
  · exact absurd hlong (Nat.not_lt.mpr (length_le_of_evaluate hw he))
  · obtain ⟨column, hv⟩ := hc.1 deepest (List.mem_of_getLast? hl)
    obtain ⟨way, hw, hunique⟩ := hi.existsUnique_firstWay hv (hc.needs hl)
    obtain ⟨hchain, hlast⟩ := hw.virtualChain
    obtain ⟨first, hfirst, hhead, -⟩ := hw.exists_head
    rw [List.mem_singleton.mp hfirst] at hhead
    exact ⟨way, ⟨hw, hchain, hhead, hlast⟩, fun other ho => hunique other ho.1⟩

end Requests

/-! ### Narrowing -/

section Narrowing

variable {view : View} {resolver next : Resolver} {predicate : Predicate}
  {leaves : List (String × Test)}

/-- The column of a leaf means something, and the test suits its type. -/
def Passes (view : View) (leaf : String × Test) : Prop :=
  ∃ column, view.meaning leaf.1 = .ok column ∧ leaf.2.Suits column.kind

theorem resolve_of_stuck (hs : resolver.stuck = []) (name : String) :
    view.resolve name resolver = view.resolveAt view.maxDepth [] name resolver := by
  show view.resolveAt (view.maxDepth - resolver.stuck.length) resolver.stuck name resolver = _
  rw [hs]
  rfl

/-- A leaf is probed with success if its column is found and it passes. -/
theorem Invariant.probe_eq_ok_iff_passes (h : view.Invariant) (hm : view.MemoSound resolver)
    (hs : resolver.stuck = []) {leaf : String × Test} :
    view.probe leaf resolver = .ok () next ↔
      (∃ column, view.resolveAt view.maxDepth [] leaf.1 resolver = .ok column next) ∧
        view.Passes leaf := by
  rw [probe_eq_ok_iff, resolve_of_stuck hs]
  have ha := h.agrees_resolveAt view.maxDepth [] leaf.1 resolver hm hs
  constructor
  · rintro ⟨column, hr, ho⟩
    rw [hr] at ha
    cases ha with
    | ok _ _ hc => exact ⟨⟨column, hr⟩, column, hc, Test.objection?_eq_none_iff.mp ho⟩
  · rintro ⟨⟨column, hr⟩, found, hc, hsuits⟩
    rw [hr] at ha
    cases ha with
    | ok _ _ hc' =>
        obtain rfl := Except.ok.inj (hc.symm.trans hc')
        exact ⟨found, hr, Test.objection?_eq_none_iff.mpr hsuits⟩

theorem Invariant.probeAll_eq_ok_iff (h : view.Invariant) (hm : view.MemoSound resolver)
    (hs : resolver.stuck = []) :
    view.probeAll leaves resolver = .ok () next ↔
      (∃ found, (leaves.map (·.1)).mapM (view.resolveAt view.maxDepth []) resolver =
        .ok found next) ∧ ∀ leaf ∈ leaves, view.Passes leaf := by
  induction leaves generalizing resolver with
  | nil => simp [probeAll, pure, EStateM.pure]
  | cons leaf leaves ih =>
      have hnext : ∀ {column middle},
          view.resolveAt view.maxDepth [] leaf.1 resolver = .ok column middle →
            view.MemoSound middle ∧ middle.stuck = [] := by
        intro column middle hr
        have ha := h.agrees_resolveAt view.maxDepth [] leaf.1 resolver hm hs
        rw [hr] at ha
        cases ha with
        | ok hmiddle hstuck _ => exact ⟨hmiddle, hstuck⟩
      rw [probeAll, bind_run_eq_ok, List.map_cons, List.mapM_cons, List.forall_mem_cons]
      constructor
      · rintro ⟨_, middle, hleaf, hrest⟩
        obtain ⟨⟨column, hr⟩, hpass⟩ := (h.probe_eq_ok_iff_passes hm hs).mp hleaf
        obtain ⟨hmiddle, hstuck⟩ := hnext hr
        obtain ⟨⟨found, hf⟩, hpasses⟩ := (ih hmiddle hstuck).mp hrest
        exact ⟨⟨column :: found, (bind_of_ok hr).trans (bind_of_ok hf)⟩, hpass, hpasses⟩
      · rintro ⟨⟨found, hf⟩, hpass, hpasses⟩
        obtain ⟨column, middle, hr, hf⟩ := bind_run_eq_ok.mp hf
        obtain ⟨hmiddle, hstuck⟩ := hnext hr
        obtain ⟨rest, last, hrest, hlast⟩ := bind_run_eq_ok.mp hf
        cases hlast
        exact ⟨(), middle, (h.probe_eq_ok_iff_passes hm hs).mpr ⟨⟨column, hr⟩, hpass⟩,
          (ih hmiddle hstuck).mpr ⟨⟨rest, hrest⟩, hpasses⟩⟩

theorem Invariant.contains_of_passes (h : view.Invariant)
    (hpasses : ∀ leaf ∈ predicate.leaves, view.Passes leaf) :
    ∀ name ∈ predicate.columns, view.contains name = true := by
  intro name hn
  obtain ⟨leaf, hleaf, rfl⟩ := List.mem_map.mp (Predicate.mem_columns.mp hn)
  obtain ⟨column, hc, -⟩ := hpasses leaf hleaf
  exact h.contains_iff.mpr (h.mem_columnNames_of_meaning hc)

/-- **Narrowing succeeds** if every leaf passes and no first way to what they need is too long. -/
theorem Invariant.exists_filter_iff (h : view.Invariant) :
    (∃ narrowed, (view.filter predicate).outcome = .ok narrowed) ↔
      (∀ leaf ∈ predicate.leaves, view.Passes leaf) ∧
        ∀ deepest way, view.FirstWay deepest (predicate.leaves.map (·.1)) way →
          way.length ≤ view.maxDepth := by
  have hend := h.sameEnd_search predicate view.memoSound_fresh rfl
  constructor
  · rintro ⟨narrowed, hf⟩
    obtain ⟨-, bits, next, -, hs, -⟩ := h.filter_eq_ok_iff.mp hf
    rw [hs] at hend
    generalize hp : view.probeAll predicate.leaves .fresh = result at hend
    cases hend
    obtain ⟨⟨found, hr⟩, hpasses⟩ := (h.probeAll_eq_ok_iff view.memoSound_fresh rfl).mp hp
    exact ⟨hpasses, (h.exists_mapM_iff.mp ⟨found, next, hr⟩).2⟩
  · rintro ⟨hpasses, hshort⟩
    have hmeant : ∀ name ∈ predicate.leaves.map (·.1),
        ∃ column, view.meaning name = .ok column := by
      intro name hn
      obtain ⟨leaf, hleaf, rfl⟩ := List.mem_map.mp hn
      obtain ⟨column, hc, -⟩ := hpasses leaf hleaf
      exact ⟨column, hc⟩
    obtain ⟨found, next, hr⟩ := h.exists_mapM_iff.mpr ⟨hmeant, hshort⟩
    rw [(h.probeAll_eq_ok_iff view.memoSound_fresh rfl).mpr ⟨⟨found, hr⟩, hpasses⟩] at hend
    generalize hs : view.search predicate .fresh = result at hend
    cases hend
    obtain ⟨hb, hl⟩ := h.selected_eq_ok (h.selected_of_search hs)
    obtain ⟨wide, hw, -⟩ := h.widen_eq_ok hb hl
    exact ⟨_, h.filter_eq_ok_iff.mpr ⟨h.contains_of_passes hpasses, _, _, wide, hs, hw, rfl⟩⟩

/-- Where every leaf passes, narrowing fails for want of room only. -/
theorem Invariant.tooDeep_of_filter (h : view.Invariant)
    (hpasses : ∀ leaf ∈ predicate.leaves, view.Passes leaf) {cause : Abort EvalError}
    (hf : (view.filter predicate).outcome = .error cause) :
    ∃ deepest, cause = .error (.definitionTooDeep deepest view.maxDepth) := by
  have hrun : view.filter predicate = ⟨.error cause, (view.filter predicate).journal⟩ := by
    rw [← hf]
  obtain ⟨last, hs, -⟩ := (h.filter_eq_error_iff (h.contains_of_passes hpasses)).mp hrun
  have hend := h.sameEnd_search predicate view.memoSound_fresh rfl
  rw [hs] at hend
  generalize hp : view.probeAll predicate.leaves .fresh = result at hend
  cases hend
  obtain ⟨before, leaf, after, middle, hl, hb, hleaf⟩ := probeAll_eq_error_iff.mp hp
  obtain ⟨hm, hstuck⟩ := h.sound_of_probeAll view.memoSound_fresh rfl hb
  obtain ⟨column, hc, hsuits⟩ := hpasses leaf (by simp [hl])
  have ha := h.agrees_resolve leaf.1 middle hm hstuck
  rw [hc] at ha
  rcases probe_eq_error_iff.mp hleaf with hr | ⟨found, error, hr, ho, -⟩
  · rw [hr] at ha
    cases ha with
    | error _ _ he =>
        obtain ⟨_, deepest, rfl, -⟩ := refused_of_fresh (he.resolve_left nofun)
        exact ⟨deepest, rfl⟩
    | fault _ he => cases he
  · rw [hr] at ha
    cases ha with
    | ok _ _ hfound =>
        obtain rfl := Except.ok.inj hfound
        cases (Test.objection?_eq_none_iff.mpr hsuits).symm.trans ho

end Narrowing

/-! ### A view with two ways -/

/-- One number, with a function that hands on its first argument, and room for two virtual
columns. -/
def single : View where
  table := ⟨[("number", .ofInts #[1])]⟩
  mask := none
  functions := ⟨[("first", .elementwise fun cells => cells.headD .null)]⟩
  virtuals := []
  positions := ∅
  maxDepth := 2

/-- The number handed on once, twice, and from these sources once more. -/
def relayed (sources : List String) : View :=
  ((single.insertVirtual ⟨"once", "first", ["number"]⟩).insertVirtual
    ⟨"twice", "first", ["once"]⟩).insertVirtual ⟨"last", "first", sources⟩

section Relayed

variable {sources : List String}

theorem contains_single (name : String) : single.contains name = (name == "number") :=
  contains_of_names rfl rfl name

theorem reachable_relayed (h : ∀ source ∈ sources, source = "once" ∨ source = "twice") :
    (relayed sources).Reachable := by
  have ht : Table.Built single.table := .addColumn .empty (.ofInts _) rfl
  have hfirst := (Reachable.ofTable ht).after
    (show (Operation.register "first" (.elementwise fun cells => cells.headD .null)).Sound from
      ColumnFunction.sound_elementwise _)
  have hsingle : single.Reachable :=
    hfirst.after (show (Operation.limit 2).Sound from trivial)
  refine ((hsingle.insertVirtual ?_ rfl ?_).insertVirtual ?_ rfl ?_).insertVirtual ?_ rfl ?_
  · simp [contains_single]
  · simp [contains_single]
  · simp [contains_single, contains_insertVirtual]
  · simp [contains_insertVirtual]
  · simp [contains_single, contains_insertVirtual]
  · intro source hs
    rcases h source hs with rfl | rfl
    · simp [contains_insertVirtual]
    · simp [contains_insertVirtual]

theorem virtualColumn?_relayed (sources : List String)
    (h : ∀ source ∈ sources, source = "once" ∨ source = "twice") :
    (relayed sources).virtualColumn? "number" = none ∧
      (relayed sources).virtualColumn? "once" = some ⟨"once", "first", ["number"]⟩ ∧
      (relayed sources).virtualColumn? "twice" = some ⟨"twice", "first", ["once"]⟩ ∧
      (relayed sources).virtualColumn? "last" = some ⟨"last", "first", sources⟩ := by
  have hi := (reachable_relayed h).invariant
  refine ⟨hi.virtualColumn?_eq_none_iff.mpr ?_, hi.virtualColumn?_eq_some_iff.mpr ?_,
    hi.virtualColumn?_eq_some_iff.mpr ?_, hi.virtualColumn?_eq_some_iff.mpr ?_⟩
  · simp [virtualNames, relayed, insertVirtual, single]
  all_goals simp [relayed, insertVirtual, single]

theorem virtualChain_relayed (h : ∀ source ∈ sources, source = "once" ∨ source = "twice")
    (ht : "twice" ∈ sources) : (relayed sources).VirtualChain ["last", "twice", "once"] := by
  obtain ⟨-, honce, htwice, hlast⟩ := virtualColumn?_relayed sources h
  refine ⟨?_, .cons_cons ⟨_, hlast, ht⟩ (.cons_cons ⟨_, htwice, by simp⟩ (.singleton "once"))⟩
  simp [honce, htwice, hlast]

/-- With the nearer source first, no first way is longer than two. -/
theorem length_le_relayed {deepest : String} {way : List String}
    (hw : (relayed ["once", "twice"]).FirstWay deepest ["last"] way) : way.length ≤ 2 := by
  obtain ⟨hnumber, honce, htwice, hlast⟩ :=
    virtualColumn?_relayed ["once", "twice"] (by simp)
  obtain rfl | ⟨rest, rfl, hsources⟩ := firstWay_of_virtual hlast hw
  · decide
  have hafter : (relayed ["once", "twice"]).AfterSources [] ["once", "twice"] := by
    refine ⟨fun source hs => .inl ?_, fun source hs => .inr ?_, trivial⟩
    · rwa [List.mem_singleton.mp (mem_sources_of_directSource honce hs)]
    · exact mem_sources_of_directSource htwice hs
  exact Nat.succ_le_succ (hsources.length_le_one hafter (by simp))

/-- With the farther source first, the first way to the nearer one is longer than two. -/
theorem firstWay_relayed :
    (relayed ["twice", "once"]).FirstWay "once" ["last"] ["last", "twice", "once"] := by
  obtain ⟨-, honce, htwice, hlast⟩ := virtualColumn?_relayed ["twice", "once"] (by simp)
  exact .down hlast (.down htwice (.here honce))

/-- **A chain that is too long may go unnoticed.**  Where the nearer source comes first, the chain
through the farther one is found in part already, and the request succeeds; where the order of the
sources is the other one, it does not. -/
theorem depth_unnoticed_relayed :
    (relayed ["once", "twice"]).Reachable ∧ (relayed ["once", "twice"]).maxDepth = 2 ∧
      (relayed ["once", "twice"]).VirtualChain ["last", "twice", "once"] ∧
      (∃ column, ((relayed ["once", "twice"]).evaluate "last").outcome = .ok column) ∧
      ∀ column, ((relayed ["twice", "once"]).evaluate "last").outcome ≠ .ok column := by
  have hr : (relayed ["once", "twice"]).Reachable := reachable_relayed (by simp)
  refine ⟨hr, rfl, virtualChain_relayed (by simp) (by simp), ?_, fun column he => ?_⟩
  · obtain ⟨column, hm, -⟩ := Outcome.eq_ok_of_map_toOption
      (show ((relayed ["once", "twice"]).meaning "last").toOption.map (·.length) = some 1 by
        decide +kernel)
    exact ⟨column, (hr.invariant.evaluate_of_firstWay fun _ _ hw => length_le_relayed hw).trans hm⟩
  · exact absurd (length_le_of_evaluate firstWay_relayed he) (by decide)

/-- The first way decides, in both orders. -/
theorem depth_enforced_relayed :
    (relayed ["twice", "once"]).Reachable ∧ (relayed ["once", "twice"]).Reachable ∧
      (relayed ["twice", "once"]).FirstWay "once" ["last"] ["last", "twice", "once"] ∧
      (∀ column, ((relayed ["twice", "once"]).evaluate "last").outcome ≠ .ok column) ∧
      ((relayed ["once", "twice"]).evaluate "last").outcome =
        (relayed ["once", "twice"]).meaning "last" := by
  have hfar : (relayed ["twice", "once"]).Reachable := reachable_relayed (by simp)
  have hnear : (relayed ["once", "twice"]).Reachable := reachable_relayed (by simp)
  exact ⟨hfar, hnear, firstWay_relayed,
    (hfar.depth_enforced "last").1 _ _ firstWay_relayed (by decide),
    (hnear.depth_enforced "last").2.1 fun _ _ hw => length_le_relayed hw⟩

end Relayed

end RowSieve.View

import RowSieve.Proofs.Predicate.Typing
import RowSieve.Proofs.View.Session
import RowSieve.Proofs.View.Work

/-!
# The leaf at which narrowing stops

A predicate is narrowed by leaf by leaf, from left to right, and the connectives never fail.  So
narrowing fails exactly where going through the leaves does: at the first one whose column cannot be
resolved, or whose test does not fit the column, and with the error found there.

* `Predicate.find?_columns`: the first unknown column is that of the first leaf that has one.
* `View.Invariant.sameEnd_search`: finding rows ends as `View.probe`, put to one leaf after another.
* `View.Reachable.filter_stops`: why narrowing fails, and what was worked out until then.
-/

namespace RowSieve

/-! ### The columns of the leaves -/

namespace Predicate

theorem find?_columnsAfter (p : String → Bool) (predicate : Predicate) (listed : List String) :
    (predicate.columnsAfter listed).find? p =
      (listed ++ predicate.leaves.map (·.1)).find? p := by
  induction predicate generalizing listed with
  | leaf column test =>
      rw [columnsAfter]
      split
      next hc =>
        -- a column that is listed is found there, if at all
        show listed.find? p = (listed ++ [column]).find? p
        rw [List.find?_append]
        cases hf : listed.find? p with
        | some found => rfl
        | none =>
            have hp := List.find?_eq_none.mp hf column hc
            simp [hp]
      next => rfl
  | and left right ihl ihr | or left right ihl ihr =>
      rw [columnsAfter, ihr, leaves, List.map_append, ← List.append_assoc, List.find?_append, ihl,
        ← List.find?_append]
  | not inner ih => exact ih listed

/-- Each column is listed where it is first read. -/
theorem find?_columns (p : String → Bool) (predicate : Predicate) :
    predicate.columns.find? p = (predicate.leaves.map (·.1)).find? p :=
  predicate.find?_columnsAfter p []

end Predicate

namespace View

open Resolve

/-! ### Going through the leaves -/

/-- **Probe a leaf**: resolve its column, and see whether its test fits the type. -/
def probe (view : View) (leaf : String × Test) : Resolve Unit := do
  let column ← view.resolve leaf.1
  match leaf.2.objection? leaf.1 column.kind with
  | some error => fail (.data error)
  | none => pure ()

/-- Probe the leaves one after another, up to the first that fails. -/
def probeAll (view : View) : List (String × Test) → Resolve Unit
  | [] => pure ()
  | leaf :: rest => view.probe leaf >>= fun _ => view.probeAll rest

/-- Two computations that end in one resolver, both with a value or both for one reason. -/
inductive SameEnd {α β : Type} : EStateM.Result (Abort EvalError) Resolver α →
    EStateM.Result (Abort EvalError) Resolver β → Prop where
  | ok {value : α} {other : β} {next : Resolver} : SameEnd (.ok value next) (.ok other next)
  | error {cause : Abort EvalError} {next : Resolver} :
      SameEnd (.error cause next) (.error cause next)

section Rules

variable {α β γ η : Type} {resolver : Resolver}

theorem SameEnd.refl (result : EStateM.Result (Abort EvalError) Resolver α) :
    SameEnd result result := by
  cases result with
  | ok => exact .ok
  | error => exact .error

theorem SameEnd.bind {action : Resolve α} {other : Resolve β} {next : α → Resolve γ}
    {next' : β → Resolve η} (h : SameEnd (action resolver) (other resolver))
    (hn : ∀ value value' middle, action resolver = .ok value middle →
      other resolver = .ok value' middle → SameEnd (next value middle) (next' value' middle)) :
    SameEnd ((action >>= next) resolver) ((other >>= next') resolver) := by
  show SameEnd (EStateM.bind action next resolver) (EStateM.bind other next' resolver)
  rw [EStateM.bind, EStateM.bind]
  generalize action resolver = result, other resolver = result' at h hn ⊢
  cases h with
  | ok => exact hn _ _ _ rfl rfl
  | error => exact .error

/-- What is done without fail does not change the end. -/
theorem SameEnd.followed {action : Resolve α} {next : α → Resolve γ}
    {result : EStateM.Result (Abort EvalError) Resolver β} (h : SameEnd (action resolver) result)
    (hn : ∀ value last, action resolver = .ok value last →
      ∃ after, next value last = .ok after last) : SameEnd ((action >>= next) resolver) result := by
  show SameEnd (EStateM.bind action next resolver) result
  rw [EStateM.bind]
  generalize action resolver = found at h hn ⊢
  cases h with
  | @ok value _ last =>
      obtain ⟨after, ha⟩ := hn value last rfl
      dsimp only
      rw [ha]
      exact .ok
  | error => exact .error

theorem probeAll_append (view : View) (leaves later : List (String × Test)) :
    view.probeAll (leaves ++ later) =
      (view.probeAll leaves >>= fun _ => view.probeAll later) := by
  induction leaves with
  | nil => rfl
  | cons leaf leaves ih =>
      rw [List.cons_append, probeAll, probeAll, ih, bind_assoc]

/-- **Probing fails at the first leaf that does.** -/
theorem probeAll_eq_error_iff {view : View} {leaves : List (String × Test)}
    {cause : Abort EvalError} {last : Resolver} :
    view.probeAll leaves resolver = .error cause last ↔
      ∃ before leaf after middle, leaves = before ++ leaf :: after ∧
        view.probeAll before resolver = .ok () middle ∧
          view.probe leaf middle = .error cause last := by
  constructor
  · intro h
    induction leaves generalizing resolver with
    | nil => cases h
    | cons leaf rest ih =>
        cases hp : view.probe leaf resolver with
        | error cause' last' =>
            have he : view.probeAll (leaf :: rest) resolver = .error cause' last' :=
              bind_of_error hp
            cases he.symm.trans h
            exact ⟨[], leaf, rest, resolver, rfl, rfl, hp⟩
        | ok value middle =>
            have hrest : view.probeAll (leaf :: rest) resolver = view.probeAll rest middle :=
              bind_of_ok hp
            rw [hrest] at h
            obtain ⟨before, failing, after, next, rfl, hbefore, hf⟩ := ih h
            exact ⟨leaf :: before, failing, after, next, rfl, (bind_of_ok hp).trans hbefore, hf⟩
  · rintro ⟨before, leaf, after, middle, rfl, hbefore, hf⟩
    rw [probeAll_append, bind_of_ok hbefore]
    exact bind_of_error hf

end Rules

section Leaves

variable {view : View} {resolver : Resolver}

theorem Invariant.sameEnd_leaf (h : view.Invariant) (hm : view.MemoSound resolver)
    (name : String) (test : Test) :
    SameEnd (view.search (.leaf name test) resolver) (view.probe (name, test) resolver) := by
  refine SameEnd.bind (.refl (view.resolve name resolver)) ?_
  intro column column' middle hok hok'
  obtain ⟨rfl, -⟩ := EStateM.Result.ok.inj (hok.symm.trans hok')
  have ha := h.agrees_resolve name resolver hm rfl
  rw [hok] at ha
  cases ha with
  | ok _ _ hc =>
      dsimp only
      cases ho : test.objection? name column.kind with
      | some error =>
          rw [Test.bits_of_objection ho]
          exact .error
      | none =>
          obtain ⟨bits, hbits⟩ := Test.exists_bits (h.wellFormed_of_meaning hc).1 ho
          rw [hbits]
          exact .ok

/-- What is found for both parts is combined without fail. -/
theorem Invariant.sameEnd_combine (h : view.Invariant) (hm : view.MemoSound resolver)
    (hs : resolver.stuck = []) {op : Bits → Bits → Except Fault Bits}
    (hop : ∀ {left right : Bits}, left.WellFormed → right.WellFormed → left.length = right.length →
      ∃ bits, op left right = .ok bits) {left right : Predicate}
    (hl : SameEnd (view.search left resolver) (view.probeAll left.leaves resolver))
    (hr : ∀ middle, view.MemoSound middle → middle.stuck = [] →
      SameEnd (view.search right middle) (view.probeAll right.leaves middle)) :
    SameEnd
      ((view.search left >>= fun leftBits => view.search right >>= fun rightBits =>
        settle [] (Outcome.mapError .data (Outcome.ofFaulty (op leftBits rightBits)))) resolver)
      (view.probeAll (left.leaves ++ right.leaves) resolver) := by
  rw [probeAll_append]
  refine SameEnd.bind hl ?_
  intro leftBits _ middle hok _
  have hleft := h.agrees_search left resolver hm hs
  rw [hok] at hleft
  cases hleft with
  | ok hmiddle hstuck hfound =>
      refine SameEnd.followed (hr middle hmiddle hstuck) ?_
      intro rightBits last hok'
      have hright := h.agrees_search right middle hmiddle hstuck
      rw [hok'] at hright
      cases hright with
      | ok _ _ hfound' =>
          obtain ⟨hwf, hlength⟩ := h.selected_eq_ok hfound
          obtain ⟨hwf', hlength'⟩ := h.selected_eq_ok hfound'
          obtain ⟨bits, hbits⟩ := hop hwf hwf' (hlength.trans hlength'.symm)
          exact ⟨bits, by rw [hbits]; rfl⟩

/-- **Finding the rows that satisfy a predicate** ends as going through its leaves does. -/
theorem Invariant.sameEnd_search (h : view.Invariant) (predicate : Predicate)
    (hm : view.MemoSound resolver) (hs : resolver.stuck = []) :
    SameEnd (view.search predicate resolver) (view.probeAll predicate.leaves resolver) := by
  induction predicate generalizing resolver with
  | leaf name test =>
      have hleaf := h.sameEnd_leaf hm name test
      rwa [Predicate.leaves, probeAll, probeAll, bind_pure]
  | and left right ihl ihr =>
      refine h.sameEnd_combine hm hs ?_ (ihl hm hs) fun middle => ihr
      intro _ _ hwf hwf' hlength
      exact (Bits.and_eq_ok hwf hwf' hlength).imp fun _ => And.left
  | or left right ihl ihr =>
      refine h.sameEnd_combine hm hs ?_ (ihl hm hs) fun middle => ihr
      intro _ _ hwf hwf' hlength
      exact (Bits.or_eq_ok hwf hwf' hlength).imp fun _ => And.left
  | not inner ih =>
      refine SameEnd.followed (ih hm hs) ?_
      intro bits last _
      exact ⟨bits.not, rfl⟩

end Leaves

/-! ### Where narrowing stops -/

/-- An error in resolving a column that is there: a function fails, or a limit of depth is met. -/
inductive OfResolution : EvalError → Prop where
  | failed (function column : String) (failure : Failure) :
      OfResolution (.functionFailed function column failure)
  | arity (column function : String) (expected actual : Nat) :
      OfResolution (.arityMismatch column function expected actual)
  | tooDeep (column : String) (limit : Nat) : OfResolution (.definitionTooDeep column limit)

/-- **The first leaf that fails**, after those before it have passed on the same resolver: its
column cannot be resolved, or its test does not fit the type of the column. -/
inductive StopsAt (view : View) (leaves before : List (String × Test)) (leaf : String × Test) :
    Abort EvalError → List Event → Prop where
  | unresolved {after : List (String × Test)} {middle last : Resolver} {cause : Abort EvalError}
      (hl : leaves = before ++ leaf :: after) (hb : view.probeAll before .fresh = .ok () middle)
      (hr : view.resolve leaf.1 middle = .error cause last)
      (hk : ∀ error, cause = .error error → OfResolution error) :
      StopsAt view leaves before leaf cause last.journal
  | illTyped {after : List (String × Test)} {middle last : Resolver} {column : Column}
      {context expected actual : String} (hl : leaves = before ++ leaf :: after)
      (hb : view.probeAll before .fresh = .ok () middle)
      (hr : view.resolve leaf.1 middle = .ok column last)
      (ho : leaf.2.objection? leaf.1 column.kind =
        some (.typeMismatch context expected actual)) :
      StopsAt view leaves before leaf (.error (.data (.typeMismatch context expected actual)))
        last.journal

section Stopping

variable {view : View} {resolver middle last : Resolver} {leaf : String × Test}
  {leaves before : List (String × Test)} {cause : Abort EvalError} {journal : List Event}

theorem probe_of_error (hr : view.resolve leaf.1 resolver = .error cause last) :
    view.probe leaf resolver = .error cause last :=
  bind_of_error hr

theorem probe_of_ok {column : Column} (hr : view.resolve leaf.1 resolver = .ok column last) :
    view.probe leaf resolver =
      match leaf.2.objection? leaf.1 column.kind with
      | some error => .error (.error (.data error)) last
      | none => .ok () last := by
  rw [show view.probe leaf resolver = _ from bind_of_ok hr]
  cases leaf.2.objection? leaf.1 column.kind <;> rfl

theorem probe_eq_ok_iff :
    view.probe leaf resolver = .ok () last ↔ ∃ column,
      view.resolve leaf.1 resolver = .ok column last ∧
        leaf.2.objection? leaf.1 column.kind = none := by
  cases hr : view.resolve leaf.1 resolver with
  | error cause next => simp [probe_of_error hr]
  | ok column next =>
      rw [probe_of_ok hr]
      cases ho : leaf.2.objection? leaf.1 column.kind with
      | none => simp [ho]
      | some error => simp [ho]

theorem probe_eq_error_iff :
    view.probe leaf resolver = .error cause last ↔
      view.resolve leaf.1 resolver = .error cause last ∨ ∃ column error,
        view.resolve leaf.1 resolver = .ok column last ∧
          leaf.2.objection? leaf.1 column.kind = some error ∧ cause = .error (.data error) := by
  cases hr : view.resolve leaf.1 resolver with
  | error cause next => simp [probe_of_error hr]
  | ok column next =>
      rw [probe_of_ok hr]
      cases ho : leaf.2.objection? leaf.1 column.kind with
      | none => simp [ho]
      | some error => simp [ho, and_comm, eq_comm]

/-- What the leaves that pass leave behind. -/
theorem Invariant.sound_of_probeAll (h : view.Invariant) (hm : view.MemoSound resolver)
    (hs : resolver.stuck = []) (hp : view.probeAll leaves resolver = .ok () middle) :
    view.MemoSound middle ∧ middle.stuck = [] := by
  induction leaves generalizing resolver with
  | nil =>
      cases hp
      exact ⟨hm, hs⟩
  | cons leaf leaves ih =>
      cases hleaf : view.probe leaf resolver with
      | error cause next =>
          have he : view.probeAll (leaf :: leaves) resolver = .error cause next :=
            bind_of_error hleaf
          cases he.symm.trans hp
      | ok value next =>
          obtain ⟨column, hr, -⟩ := probe_eq_ok_iff.mp hleaf
          have hrest : view.probeAll (leaf :: leaves) resolver = view.probeAll leaves next :=
            bind_of_ok hleaf
          have ha := h.agrees_resolve leaf.1 resolver hm rfl
          rw [hr] at ha
          cases ha with
          | ok hnext hstuck _ => exact ih hnext (hstuck.trans hs) (hrest ▸ hp)

/-- **A column that is there** cannot be resolved because a function fails, or for want of room. -/
theorem Invariant.ofResolution (h : view.Invariant) (hm : view.MemoSound resolver)
    (hs : resolver.stuck = []) {name : String} (hn : name ∈ view.columnNames) {error : EvalError}
    (hr : view.resolve name resolver = .error (.error error) last) : OfResolution error := by
  have ha := h.agrees_resolve name resolver hm hs
  rw [hr] at ha
  cases ha with
  | error _ _ he =>
      rcases he with he | he
      · rcases h.meaning_eq_error he with ⟨-, hmissing⟩ | ⟨_, _, ⟨failure, rfl⟩ | ⟨_, actual, rfl⟩⟩
        · exact absurd hn hmissing
        · exact .failed _ _ failure
        · exact .arity _ _ _ actual
      · obtain ⟨_, _, rfl, -⟩ := refused_of_fresh he
        exact .tooDeep _ _

theorem StopsAt.probed (h : view.StopsAt leaves before leaf cause journal) :
    ∃ after middle last, leaves = before ++ leaf :: after ∧
      view.probeAll before .fresh = .ok () middle ∧ view.probe leaf middle = .error cause last ∧
        last.journal = journal := by
  cases h with
  | @unresolved after middle last _ hl hb hr _ =>
      exact ⟨after, middle, last, hl, hb, probe_eq_error_iff.mpr (.inl hr), rfl⟩
  | @illTyped after middle last column _ _ _ hl hb hr ho =>
      exact ⟨after, middle, last, hl, hb,
        probe_eq_error_iff.mpr (.inr ⟨column, _, hr, ho, rfl⟩), rfl⟩

/-- **Probing the leaves fails where narrowing stops.** -/
theorem Invariant.probeAll_eq_error_iff_stopsAt (h : view.Invariant)
    (hknown : ∀ leaf ∈ leaves, leaf.1 ∈ view.columnNames) :
    (∃ last, view.probeAll leaves .fresh = .error cause last ∧ last.journal = journal) ↔
      ∃ before leaf, view.StopsAt leaves before leaf cause journal := by
  constructor
  · rintro ⟨last, hp, rfl⟩
    obtain ⟨before, leaf, after, middle, hl, hb, hf⟩ := probeAll_eq_error_iff.mp hp
    obtain ⟨hm, hs⟩ := h.sound_of_probeAll view.memoSound_fresh rfl hb
    refine ⟨before, leaf, ?_⟩
    rcases probe_eq_error_iff.mp hf with hr | ⟨column, error, hr, ho, rfl⟩
    · refine .unresolved hl hb hr ?_
      rintro error rfl
      exact h.ofResolution hm hs (hknown leaf (by simp [hl])) hr
    · obtain ⟨context, expected, actual, rfl⟩ := Test.objection?_eq_some ho
      exact .illTyped hl hb hr ho
  · rintro ⟨before, leaf, hstop⟩
    obtain ⟨after, middle, last, hl, hb, hf, hj⟩ := hstop.probed
    exact ⟨last, probeAll_eq_error_iff.mpr ⟨before, leaf, after, middle, hl, hb, hf⟩, hj⟩

/-- Narrowing fails where finding the rows does. -/
theorem Invariant.filter_eq_error_iff (h : view.Invariant) {predicate : Predicate}
    (hc : ∀ name ∈ predicate.columns, view.contains name = true) :
    view.filter predicate = ⟨.error cause, journal⟩ ↔
      ∃ last, view.search predicate .fresh = .error cause last ∧ last.journal = journal := by
  rw [filter_of_contains hc]
  cases hs : view.search predicate .fresh with
  | error broken next =>
      rw [run_of_error (narrow_of_error hs)]
      constructor
      · intro hf
        cases hf
        exact ⟨next, rfl, rfl⟩
      · rintro ⟨last, he, rfl⟩
        cases he
        rfl
  | ok bits next =>
      obtain ⟨hb, hl⟩ := h.selected_eq_ok (h.selected_of_search hs)
      obtain ⟨wide, hw, -⟩ := h.widen_eq_ok hb hl
      rw [run_of_ok (narrow_of_ok hs hw)]
      constructor
      · intro hf
        cases hf
      · rintro ⟨last, he, -⟩
        cases he

theorem Invariant.walks_probeAll (h : view.Invariant) (leaves : List (String × Test)) :
    view.Walks (view.probeAll leaves) (leaves.map (·.1)) := by
  induction leaves with
  | nil => exact walks_pure ()
  | cons leaf leaves ih =>
      have hleaf : view.Walks (view.probe leaf) [leaf.1] := by
        refine (h.walks_resolve leaf.1).followed ?_
        intro column
        split
        · exact walks_fail _
        · exact walks_pure ()
      exact hleaf.bind fun _ => ih

/-- **What was worked out until then** is needed by the leaves up to this one. -/
theorem StopsAt.needed (hstop : view.StopsAt leaves before leaf cause journal) (h : view.Invariant)
    {name : String} (hn : name ∈ workOf journal) :
    ∃ asked ∈ before ++ [leaf], Relation.ReflTransGen view.DirectSource asked.1 name := by
  obtain ⟨-, middle, last, -, hb, hf, rfl⟩ := hstop.probed
  have hp : view.probeAll (before ++ [leaf]) .fresh = .error cause last :=
    probeAll_eq_error_iff.mpr ⟨before, leaf, [], middle, rfl, hb, hf⟩
  obtain ⟨order, ho⟩ := h.exists_postOrder [] ((before ++ [leaf]).map (·.1))
  have hw := h.walks_probeAll (before ++ [leaf]) [] order .fresh ho view.logged_fresh
  rw [hp] at hw
  cases hw with
  | error hinitial _ =>
      obtain ⟨asked, ha, hr⟩ := ho.mem_iff.mp (hinitial.subset hn)
      obtain ⟨needed, hneeded, rfl⟩ := List.mem_map.mp ha
      exact ⟨needed, hneeded, hr⟩

/-- **Narrowing reports the right error.**  If a leaf reads a column that is not there, the first
such column is unknown, and nothing is done.  Otherwise narrowing fails where going through the
leaves from left to right stops, with the error found there, and works out no column that only
later leaves need. -/
theorem Reachable.filter_stops (h : view.Reachable) (predicate : Predicate) :
    (∀ before missing test after, predicate.leaves = before ++ (missing, test) :: after →
        (∀ leaf ∈ before, leaf.1 ∈ view.columnNames) → missing ∉ view.columnNames →
          view.filter predicate = .failed (.data (.unknownColumn missing))) ∧
      ((∀ leaf ∈ predicate.leaves, leaf.1 ∈ view.columnNames) →
        (∀ cause journal, view.filter predicate = ⟨.error cause, journal⟩ ↔
          ∃ before leaf, view.StopsAt predicate.leaves before leaf cause journal) ∧
        ∀ before leaf cause journal, view.StopsAt predicate.leaves before leaf cause journal →
          ∀ name ∈ workOf journal, ∃ asked ∈ before ++ [leaf],
            Relation.ReflTransGen view.DirectSource asked.1 name) := by
  have hi := h.invariant
  refine ⟨?_, ?_⟩
  · intro before missing test after hl hbefore hmissing
    have hfind : predicate.columns.find? (fun name => !view.contains name) = some missing := by
      rw [Predicate.find?_columns, List.find?_eq_some_iff_append, hl]
      refine ⟨by simpa [← hi.contains_iff] using hmissing, before.map (·.1), after.map (·.1),
        by simp, ?_⟩
      intro name hn
      obtain ⟨leaf, hleaf, rfl⟩ := List.mem_map.mp hn
      simpa using hi.contains_iff.mpr (hbefore leaf hleaf)
    rw [View.filter, hfind]
  · intro hknown
    have hcontains : ∀ name ∈ predicate.columns, view.contains name = true := by
      intro name hn
      obtain ⟨leaf, hleaf, rfl⟩ := List.mem_map.mp (Predicate.mem_columns.mp hn)
      exact hi.contains_iff.mpr (hknown leaf hleaf)
    refine ⟨?_, ?_⟩
    · intro cause journal
      rw [hi.filter_eq_error_iff hcontains, ← hi.probeAll_eq_error_iff_stopsAt hknown]
      have hend := hi.sameEnd_search predicate view.memoSound_fresh rfl
      generalize view.search predicate .fresh = result,
        view.probeAll predicate.leaves .fresh = result' at hend ⊢
      cases hend with
      | ok => simp
      | error => simp
    · intro before leaf cause journal hstop name hn
      exact hstop.needed hi hn

end Stopping

/-- What a fresh resolver has been asked for, it remembers. -/
theorem knows_of_resolve {view : View} {name : String} {column : Column} {next : Resolver}
    (hr : view.resolve name .fresh = .ok column next) : next.Knows name := by
  have hf : view.Filled [name] _ _ (view.resolve name .fresh) :=
    fills_resolveAt (fun _ _ _ _ => trivial) view.maxDepth [] trivial _ _
      (view.consistent_fresh.remembers fun _ _ => trivial)
  rw [hr] at hf
  cases hf with
  | ok hk => exact hk.least name (.inl (List.mem_singleton_self name))

/-- On their own the lengths lie too deep.  Where the capitals are tested first they are within
reach, and no truth values.  An unknown column that is read later comes before all that. -/
theorem stops_shallow :
    shallow.Reachable ∧
      shallow.filter (.and (.leaf "length" .isTrue) (.leaf "width" .isNull)) =
        .failed (.data (.unknownColumn "width")) ∧
      (∃ journal, shallow.filter (.or (.leaf "length" .isTrue) (.leaf "text" .isTrue)) =
        ⟨.error (.error (.definitionTooDeep "capitals" 1)), journal⟩) ∧
      ∃ journal, shallow.filter (.and (.leaf "capitals" .isNotNull) (.leaf "length" .isTrue)) =
        ⟨.error (.error (.data (.typeMismatch "predicate column length" "boolean" "int"))),
          journal⟩ := by
  have hi := reachable_shallow.invariant
  have hwidth := (reachable_shallow.filter_stops
    (.and (.leaf "length" .isTrue) (.leaf "width" .isNull))).1 [("length", .isTrue)] "width"
      .isNull [] rfl (by decide) (by decide)
  -- the lengths are refused
  obtain ⟨refused, hrefused⟩ := exists_of_run_eq_error evaluate_length_shallow
  have hdeep : shallow.StopsAt [("length", .isTrue), ("text", .isTrue)] [] ("length", .isTrue)
      (.error (.definitionTooDeep "capitals" 1)) refused.journal := by
    refine .unresolved rfl rfl hrefused ?_
    rintro _ ⟨⟩
    exact .tooDeep "capitals" 1
  -- the capitals are found and remembered
  obtain ⟨texts, htexts, -⟩ := Outcome.eq_ok_of_map_toOption
    (show (shallow.meaning "capitals").toOption.map (·.length) = some 2 by decide +kernel)
  obtain ⟨middle, hr⟩ : ∃ middle, shallow.resolve "capitals" .fresh = .ok texts middle :=
    exists_of_run_eq_ok (evaluate_capitals_shallow.trans htexts)
  have hprobe : shallow.probeAll [("capitals", .isNotNull)] .fresh = .ok () middle :=
    bind_of_ok (probe_eq_ok_iff.mpr ⟨texts, hr, rfl⟩)
  obtain ⟨hm, hs⟩ := hi.sound_of_probeAll shallow.memoSound_fresh rfl hprobe
  -- and the lengths are found with them
  obtain ⟨lengths, hlengths, hkind⟩ := Outcome.eq_ok_of_map_toOption
    (show (shallow.meaning "length").toOption.map (·.kind) = some .int by decide +kernel)
  have hanswer := hi.answers_resolve_of_knows (by decide) hm hs fun source hd =>
    List.mem_singleton.mp (mem_sources_of_directSource virtualColumn?_length hd) ▸
      knows_of_resolve hr
  rw [hlengths] at hanswer
  obtain ⟨last, hlast⟩ := hanswer.exists_ok
  have hstops : shallow.StopsAt [("capitals", .isNotNull), ("length", .isTrue)]
      [("capitals", .isNotNull)] ("length", .isTrue)
      (.error (.data (.typeMismatch "predicate column length" "boolean" "int"))) last.journal := by
    refine .illTyped rfl hprobe hlast ?_
    rw [hkind]
    rfl
  refine ⟨reachable_shallow, hwidth, ⟨refused.journal, ?_⟩, ⟨last.journal, ?_⟩⟩
  · exact (((reachable_shallow.filter_stops _).2 (by decide)).1 _ _).mpr ⟨_, _, hdeep⟩
  · exact (((reachable_shallow.filter_stops _).2 (by decide)).1 _ _).mpr ⟨_, _, hstops⟩

end View

end RowSieve

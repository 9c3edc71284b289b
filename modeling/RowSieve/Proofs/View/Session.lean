import RowSieve.Proofs.View.Requests
import RowSieve.Proofs.View.Steady

/-!
# Sharing a resolver

A resolver that answers one request after another remembers what it computed before, also when a
request failed.  This shows in one way only: a request that is refused for want of room may succeed
later, when some of the columns that it needs are remembered.

* `View.Invariant.request_served`: what a request can end with, and what it leaves.
* `View.Invariant.outcome_of_evaluate`: it ends as a request of its own would, unless that lies too
  deep.
* `View.Reachable.session_faithful`: hence every request to a shared resolver is answered as if it were
  the only one, or answered where a request of its own lies too deep.
-/

namespace RowSieve.View

open Resolve

/-! ### Sessions -/

/-- The requests for these columns to one resolver, each answer with the resolver it leaves. -/
def session (view : View) (resolver : Resolver) : List String → List (Run Column × Resolver)
  | [] => []
  | name :: names =>
    let answer := view.request name resolver
    answer :: view.session answer.2 names

/-- **An answer is faithful** if it is the one that a request of its own would get, or else one of its
own lies too deep and the answer is what the column means.  The resolver is not stuck. -/
structure Faithful (view : View) (name : String) (answer : Run Column × Resolver) : Prop where
  stuck : answer.2.stuck = []
  ok : ∀ column, (view.evaluate name).outcome = .ok column → answer.1.outcome = .ok column
  error : ∀ error, (view.evaluate name).outcome = .error (.error error) →
    (∀ column limit, error ≠ .definitionTooDeep column limit) →
      answer.1.outcome = .error (.error error)
  late : ∀ column, answer.1.outcome = .ok column → view.meaning name = .ok column ∧
    ((view.evaluate name).outcome = .ok column ∨ ∃ deepest, (view.evaluate name).outcome =
      .error (.error (.definitionTooDeep deepest view.maxDepth)))

/-! ### One request -/

/-- **What a request can end with**, and what it leaves. -/
inductive Served (view : View) (name : String) : Run Column × Resolver → Prop where
  | ok {column : Column} {journal : List Event} {next : Resolver}
      (hm : view.meaning name = .ok column) (hs : next.stuck = []) (hr : view.Consistent next)
      (hk : next.Knows name) : Served view name (⟨.ok column, journal⟩, next)
  | error {error : EvalError} {journal : List Event} {next : Resolver} (hs : next.stuck = [])
      (hr : view.Consistent next) : Served view name (⟨.error (.error error), journal⟩, next)
  | fault {broken : Fault} {journal : List Event} {next : Resolver}
      (hm : view.meaning name = .error (.fault broken)) :
      Served view name (⟨.error (.fault broken), journal⟩, next)

section Requests

variable {view : View} {resolver : Resolver} {name : String}

/-- A request starts from the path that the resolver is stuck at. -/
theorem request_eq_resolveAt (view : View) (name : String) (resolver : Resolver) :
    view.request name resolver =
      match view.resolveAt (view.maxDepth - resolver.stuck.length) resolver.stuck name
        { resolver with journal := [] } with
      | .ok column next => (⟨.ok column, next.journal⟩, next)
      | .error cause next => (⟨.error cause, next.journal⟩, next) := by
  have hrun : EStateM.run (view.resolve name) { resolver with journal := [] } =
      view.resolveAt (view.maxDepth - resolver.stuck.length) resolver.stuck name
        { resolver with journal := [] } := rfl
  rw [request, Resolve.run, hrun]
  cases view.resolveAt (view.maxDepth - resolver.stuck.length) resolver.stuck name
    { resolver with journal := [] } <;> rfl

theorem request_of_error {cause : Abort EvalError} {next : Resolver}
    (h : view.resolveAt (view.maxDepth - resolver.stuck.length) resolver.stuck name
      { resolver with journal := [] } = .error cause next) :
    view.request name resolver = (⟨.error cause, next.journal⟩, next) := by
  rw [request_eq_resolveAt, h]

/-- A request that starts from no path. -/
theorem request_eq (hs : resolver.stuck = []) :
    view.request name resolver =
      match view.resolveAt view.maxDepth [] name ⟨resolver.memo, [], []⟩ with
      | .ok column next => (⟨.ok column, next.journal⟩, next)
      | .error cause next => (⟨.error cause, next.journal⟩, next) := by
  rw [request_eq_resolveAt, hs, List.length_nil, Nat.sub_zero]

/-- **A request** gives what is meant, or fails; it leaves the memory consistent, and no path behind
unless a function gives up. -/
theorem Invariant.request_served (h : view.Invariant) (hr : view.Consistent resolver)
    (hs : resolver.stuck = []) (name : String) :
    view.Served name (view.request name resolver) := by
  have hstart : view.Consistent ⟨resolver.memo, [], []⟩ := hr.of_memo_eq rfl
  have ha : view.Answers [] (view.meaning name) _
      (view.resolveAt view.maxDepth [] name ⟨resolver.memo, [], []⟩) :=
    h.agrees_resolveAt view.maxDepth [] name _ hstart.sound rfl
  have hf : view.Filled [name] _ _
      (view.resolveAt view.maxDepth [] name ⟨resolver.memo, [], []⟩) :=
    fills_resolveAt (fun _ _ _ _ => trivial) view.maxDepth [] trivial _ _
      (hstart.remembers fun _ _ => trivial)
  rw [request_eq hs]
  generalize view.resolveAt view.maxDepth [] name ⟨resolver.memo, [], []⟩ = result at ha hf ⊢
  cases ha with
  | ok hm hstuck hv => cases hf with
    | ok hk =>
        exact .ok hv hstuck ⟨hm, hk.closed⟩ (hk.least name (.inl (List.mem_singleton_self name)))
  | error hm hstuck _ => cases hf with
    | error hk => exact .error hstuck ⟨hm, hk.closed⟩
  | fault _ hv => exact .fault hv

namespace Served

variable {answer : Run Column × Resolver} {column : Column}

theorem leaves (h : view.Served name answer)
    (hf : ∀ broken, answer.1.outcome ≠ .error (.fault broken)) :
    answer.2.stuck = [] ∧ view.Consistent answer.2 := by
  cases h with
  | ok _ hs hr _ => exact ⟨hs, hr⟩
  | error hs hr => exact ⟨hs, hr⟩
  | fault _ => exact absurd rfl (hf _)

theorem meaning (h : view.Served name answer) (ho : answer.1.outcome = .ok column) :
    view.meaning name = .ok column := by
  cases h with
  | ok hm _ _ _ => exact hm.trans ho
  | error => cases ho
  | fault => cases ho

theorem knows (h : view.Served name answer) (ho : answer.1.outcome = .ok column) :
    answer.2.Knows name := by
  cases h with
  | ok _ _ _ hk => exact hk
  | error => cases ho
  | fault => cases ho

/-- Where the column means something, no function gives up. -/
theorem ne_fault (h : view.Served name answer) (hm : view.meaning name = .ok column)
    (broken : Fault) : answer.1.outcome ≠ .error (.fault broken) := by
  cases h with
  | ok => nofun
  | error => nofun
  | fault hf => cases hm.symm.trans hf

end Served

/-- **What a request of its own would get** is what a request gets, unless that lies too deep or a
function gives up. -/
theorem Invariant.outcome_of_evaluate (h : view.Invariant) (hr : view.Consistent resolver)
    (hs : resolver.stuck = []) {outcome : Outcome EvalError Column}
    (he : (view.evaluate name).outcome = outcome)
    (hd : ∀ column limit, outcome ≠ .error (.error (.definitionTooDeep column limit)))
    (hf : ∀ broken, outcome ≠ .error (.fault broken)) :
    (view.request name resolver).1.outcome = outcome := by
  have hsteady : view.Upheld _ (view.resolveAt view.maxDepth [] name ⟨Resolver.fresh.memo, [], []⟩)
      (view.resolveAt view.maxDepth [] name ⟨resolver.memo, [], []⟩) :=
    h.steady_resolveAt view.maxDepth [] name .fresh _ (ahead_of_fresh (hr.of_memo_eq rfl))
  rw [View.evaluate, request_eq rfl] at he
  rw [request_eq hs]
  generalize view.resolveAt view.maxDepth [] name ⟨Resolver.fresh.memo, [], []⟩ = first,
    view.resolveAt view.maxDepth [] name ⟨resolver.memo, [], []⟩ = second at hsteady he ⊢
  cases hsteady with
  | ok => exact he
  | error => exact he
  | refused hrefused =>
      obtain ⟨_, column, rfl, -⟩ := refused_of_fresh hrefused
      exact absurd he.symm (hd column view.maxDepth)
  | fault => exact absurd he.symm (hf _)

theorem Invariant.request_faithful (h : view.Invariant) (hr : view.Consistent resolver)
    (hs : resolver.stuck = [])
    (hf : ∀ broken, (view.request name resolver).1.outcome ≠ .error (.fault broken)) :
    view.Faithful name (view.request name resolver) where
  stuck := ((h.request_served hr hs name).leaves hf).1
  ok := fun column hc => h.outcome_of_evaluate hr hs hc nofun nofun
  error := fun error he hd =>
    h.outcome_of_evaluate hr hs he (fun column limit heq => hd column limit (by cases heq; rfl)) nofun
  late := fun column hc => by
    have hm := (h.request_served hr hs name).meaning hc
    exact ⟨hm, h.evaluate_of_meaning hm⟩

/-- **A column whose sources are remembered** is answered, however deep it lies. -/
theorem Invariant.request_of_knows (h : view.Invariant) (hr : view.Consistent resolver)
    (hs : resolver.stuck = []) (hroom : 0 < view.maxDepth) {column : Column}
    (hm : view.meaning name = .ok column)
    (hk : ∀ source, view.DirectSource name source → resolver.Knows source) :
    (view.request name resolver).1.outcome = .ok column := by
  have hstart : view.Consistent ⟨resolver.memo, [], []⟩ := hr.of_memo_eq rfl
  obtain ⟨room, hroom⟩ := Nat.exists_eq_add_one.mpr hroom
  obtain ⟨next, hok⟩ := h.resolveAt_of_knows hstart.sound room List.not_mem_nil hm hk
  rw [request_eq hs, hroom, hok]

end Requests

/-! ### One request after another -/

theorem Invariant.forall₂_session {view : View} (h : view.Invariant) (names : List String)
    {resolver : Resolver} (hr : view.Consistent resolver) (hs : resolver.stuck = [])
    (hf : ∀ answer ∈ view.session resolver names, ∀ broken,
      answer.1.outcome ≠ .error (.fault broken)) :
    List.Forall₂ view.Faithful names (view.session resolver names) := by
  induction names generalizing resolver with
  | nil => exact .nil
  | cons name names ih =>
      obtain ⟨hfirst, hrest⟩ := List.forall_mem_cons.mp hf
      obtain ⟨hstuck, hnext⟩ := (h.request_served hr hs name).leaves hfirst
      exact .cons (h.request_faithful hr hs hfirst) (ih hnext hstuck hrest)

/-- **Sharing a resolver is faithful**: as long as no function gives up, every request of a session is
answered as a request of its own would be, or answered where one of its own lies too deep. -/
theorem Reachable.session_faithful {view : View} (h : view.Reachable) (names : List String)
    (hf : ∀ answer ∈ view.session .fresh names, ∀ broken,
      answer.1.outcome ≠ .error (.fault broken)) :
    List.Forall₂ view.Faithful names (view.session .fresh names) :=
  h.invariant.forall₂_session names view.consistent_fresh rfl hf

/-! ### A view with little room -/

/-- The view of texts, with room for one virtual column at a time. -/
def shallow : View :=
  capitals.withMaxDepth 1

theorem reachable_shallow : shallow.Reachable :=
  reachable_capitals.after (show (Operation.limit 1).Sound from trivial)

theorem virtualColumn?_length :
    shallow.virtualColumn? "length" = some ⟨"length", "str_len", ["capitals"]⟩ :=
  reachable_shallow.invariant.virtualColumn?_eq_some_iff.mpr ⟨by decide, rfl⟩

theorem virtualColumn?_capitals :
    shallow.virtualColumn? "capitals" = some ⟨"capitals", "str_upper", ["text"]⟩ :=
  reachable_shallow.invariant.virtualColumn?_eq_some_iff.mpr ⟨by decide, rfl⟩

/-- There is room for the capitals, of which the text is no virtual column. -/
theorem evaluate_capitals_shallow :
    (shallow.evaluate "capitals").outcome = shallow.meaning "capitals" := by
  have hi := reachable_shallow.invariant
  rcases hi.evaluate_eq "capitals" with hm | ⟨error, -, hr⟩
  · exact hm
  · obtain ⟨chain, _, -, ⟨hvirtual, hchain⟩, hl⟩ := refused_of_fresh hr
    obtain ⟨source, rfl⟩ := List.length_eq_one_iff.mp hl
    have hs := mem_sources_of_directSource virtualColumn?_capitals
      (List.isChain_cons_cons.mp hchain).1
    obtain rfl := List.mem_singleton.mp hs
    obtain ⟨column, hv⟩ := hvirtual "text" (by simp)
    have hnone : shallow.virtualColumn? "text" = none :=
      hi.virtualColumn?_eq_none_iff.mpr (by decide)
    cases hnone.symm.trans hv

/-- On their own the lengths lie too deep. -/
theorem evaluate_length_shallow :
    (shallow.evaluate "length").outcome =
      .error (.error (.definitionTooDeep "capitals" 1)) := by
  let noted : Resolver := ⟨[], [], [.resolving [] ⟨"length", "str_len", ["capitals"]⟩]⟩
  have hcapitals : shallow.resolveAt 0 ["length"] "capitals" noted =
      .error (.error (.definitionTooDeep "capitals" 1)) noted := by
    rw [resolveAt, virtualColumn?_capitals, remembered_of_none rfl]
    rfl
  have hsources : ["capitals"].mapM (shallow.resolveAt 0 ["length"]) noted =
      .error (.error (.definitionTooDeep "capitals" 1)) noted := by
    rw [List.mapM_cons]
    exact bind_of_error hcapitals
  have hbody : (["capitals"].mapM (shallow.resolveAt 0 ["length"]) >>=
      shallow.compute [] ⟨"length", "str_len", ["capitals"]⟩ TextFunction.length.call) noted =
        .error (.error (.definitionTooDeep "capitals" 1)) noted := bind_of_error hsources
  have hlength : shallow.resolve "length" .fresh =
      .error (.error (.definitionTooDeep "capitals" 1)) noted := by
    show shallow.resolveAt 1 [] "length" .fresh = _
    rw [resolveAt, virtualColumn?_length]
    exact remembered_of_error rfl hbody
  rw [View.evaluate, request, run_of_error hlength]

/-- The lengths lie too deep at first, and not any more when the capitals are remembered. -/
theorem session_shallow :
    shallow.Reachable ∧ (shallow.evaluate "length").outcome =
        .error (.error (.definitionTooDeep "capitals" 1)) ∧
      List.Forall₂ shallow.Faithful ["length", "capitals", "length"]
        (shallow.session .fresh ["length", "capitals", "length"]) ∧
      ∃ first second third column,
        shallow.session .fresh ["length", "capitals", "length"] = [first, second, third] ∧
          third.1.outcome = .ok column := by
  have hi := reachable_shallow.invariant
  obtain ⟨lengths, hlengths, -⟩ := Outcome.eq_ok_of_map_toOption
    (show (shallow.meaning "length").toOption.map (·.length) = some 2 by decide +kernel)
  obtain ⟨texts, htexts, -⟩ := Outcome.eq_ok_of_map_toOption
    (show (shallow.meaning "capitals").toOption.map (·.length) = some 2 by decide +kernel)
  -- the lengths, which are refused
  have hfirst := hi.request_served shallow.consistent_fresh rfl "length"
  obtain ⟨hs₁, hr₁⟩ := hfirst.leaves (hfirst.ne_fault hlengths)
  -- the capitals, which are remembered
  have hsecond := hi.request_served hr₁ hs₁ "capitals"
  obtain ⟨hs₂, hr₂⟩ := hsecond.leaves (hsecond.ne_fault htexts)
  have hk := hsecond.knows
    (hi.outcome_of_evaluate hr₁ hs₁ (evaluate_capitals_shallow.trans htexts) nofun nofun)
  -- the lengths again
  have hthird := hi.request_served hr₂ hs₂ "length"
  have hlate := hi.request_of_knows hr₂ hs₂ (by decide) hlengths fun source hd =>
    List.mem_singleton.mp (mem_sources_of_directSource virtualColumn?_length hd) ▸ hk
  have hcalm : ∀ answer ∈ shallow.session .fresh ["length", "capitals", "length"], ∀ broken,
      answer.1.outcome ≠ .error (.fault broken) :=
    List.forall_mem_cons.mpr ⟨hfirst.ne_fault hlengths, List.forall_mem_cons.mpr
      ⟨hsecond.ne_fault htexts, List.forall_mem_cons.mpr
        ⟨hthird.ne_fault hlengths, fun _ ha => nomatch ha⟩⟩⟩
  exact ⟨reachable_shallow, evaluate_length_shallow, reachable_shallow.session_faithful _ hcalm,
    _, _, _, lengths, rfl, hlate⟩

end RowSieve.View

import RowSieve.Proofs.View.GivingUp
import RowSieve.Proofs.View.Session

/-!
# Asking on after a function gave up

A resolver may be asked on after a function gave up, though the columns that were being resolved at
that moment stay on its path for good.  What depends on one of them is never answered any more; what
is answered is right.

* `View.Asked`: the resolvers that have been asked for columns, each time in some mood of the view,
  and what was answered.
* `View.Wavers.outlived_request`: what one request can end with, and what it leaves on the path.
* `View.Reachable.survival`: what is on the path after any requests, and what this does to the next.
-/

namespace RowSieve.View

open Resolve

/-! ### Requests in changing moods -/

/-- What an answer leaves on the path: where a function gave up, the columns whose sources were
being resolved. -/
def leftBehind (answer : Run Column) : List String :=
  match answer.outcome with
  | .error (.fault _) => beingResolved answer.journal
  | _ => []

/-- Where a function gave up, its call is the last event, and the columns whose sources were being
resolved before the call are those left behind and then the one that it was called for. -/
def EndsAtCall (answer : Run Column) : Prop :=
  ∀ broken, answer.outcome = .error (.fault broken) →
    ∃ before column rows arguments, answer.journal = before ++ [.called column rows arguments] ∧
      beingResolved before = leftBehind answer ++ [column.name]

/-- **The resolvers that have been asked**, with the answers so far.  Every request finds the view
in a mood of its own. -/
inductive Asked (view : View) : List (Run Column) → Resolver → Prop where
  | fresh : Asked view [] .fresh
  | request {answers : List (Run Column)} {resolver : Resolver} {moody : View}
      (ha : Asked view answers resolver) (hw : view.Wavers moody) (name : String) :
      Asked view (answers ++ [(moody.request name resolver).1]) (moody.request name resolver).2

/-- The resolver holds the path it is stuck at, and what it remembers comes with its sources. -/
structure Lasting (view : View) (resolver : Resolver) : Prop where
  held : view.Held resolver.stuck resolver
  closed : view.Closed resolver.Knows

/-- **What a request can end with**, and what it leaves. -/
inductive Outlived (view : View) (name : String) (stuck : List String) :
    Run Column × Resolver → Prop where
  | ok {column : Column} {journal : List Event} {next : Resolver} (hl : view.Lasting next)
      (hs : next.stuck = stuck) (hk : next.Knows name) (hm : view.meaning name = .ok column) :
      Outlived view name stuck (⟨.ok column, journal⟩, next)
  | error {error : EvalError} {journal : List Event} {next : Resolver} (hl : view.Lasting next)
      (hs : next.stuck = stuck)
      (he : view.meaning name = .error (.error error) ∨
        view.Refused (view.maxDepth - stuck.length) stuck name error) :
      Outlived view name stuck (⟨.error (.error error), journal⟩, next)
  | fault {broken : Fault} {before : List Event} {column : VirtualColumn} {rows : Nat}
      {arguments : List Column} {next : Resolver} (hl : view.Lasting next)
      (hs : next.stuck = stuck ++ beingResolved (before ++ [.called column rows arguments]))
      (hb : beingResolved before =
        beingResolved (before ++ [.called column rows arguments]) ++ [column.name]) :
      Outlived view name stuck
        (⟨.error (.fault broken), before ++ [.called column rows arguments]⟩, next)

section Requests

variable {view moody : View} {resolver : Resolver} {name : String}

theorem lasting_fresh (view : View) : view.Lasting .fresh where
  held := ⟨view.memoSound_fresh, .nil, by simp [Resolver.fresh], by simp [Resolver.fresh]⟩
  closed := view.consistent_fresh.closed

/-- What depends on a column on the path is not remembered. -/
theorem Lasting.not_knows (h : view.Lasting resolver) {stuck : String}
    (hs : stuck ∈ resolver.stuck) (hd : Relation.ReflTransGen view.DirectSource name stuck) :
    ¬ resolver.Knows name := by
  induction hd using Relation.ReflTransGen.head_induction_on with
  | refl => exact h.held.unknown stuck hs
  | head hd _ ih => exact fun hk => ih (h.closed _ _ hk hd)

theorem Wavers.closed_iff (hw : view.Wavers moody) {known : String → Prop} :
    moody.Closed known ↔ view.Closed known := by
  rw [Closed, Closed, hw.directSource_eq]

/-- **One request**, in whatever mood. -/
theorem Wavers.outlived_request (hw : view.Wavers moody) (h : view.Invariant)
    (hl : view.Lasting resolver) (name : String) :
    view.Outlived name resolver.stuck (moody.request name resolver) := by
  have hheld : view.Held resolver.stuck { resolver with journal := [] } := hl.held.of_memo_eq rfl
  have hs := hw.survives_resolveAt h (moody.maxDepth - resolver.stuck.length) resolver.stuck name
    _ hheld List.nil_suffix
  have hf : moody.Filled [name] (fun _ => False) (fun _ => True)
      (moody.resolveAt (moody.maxDepth - resolver.stuck.length) resolver.stuck name
        { resolver with journal := [] }) :=
    fills_resolveAt (fun _ _ _ _ => trivial) _ _ trivial _ _
      ⟨hw.closed_iff.mpr hl.closed, fun _ => False.elim, fun _ _ => trivial⟩
  rw [request_eq_resolveAt]
  rw [hw.maxDepth] at hs hf ⊢
  generalize moody.resolveAt (view.maxDepth - resolver.stuck.length) resolver.stuck name
    { resolver with journal := [] } = result at hs hf ⊢
  cases hs with
  | @ok _ next hnext hstuck _ hm => cases hf with
    | ok hr =>
        have hstuck : next.stuck = resolver.stuck := hstuck
        exact .ok ⟨hstuck.symm ▸ hnext, hw.closed_iff.mp hr.closed⟩ hstuck
          (hr.least name (.inl (List.mem_singleton_self name))) hm
  | @error _ next hnext hstuck he => cases hf with
    | error hr =>
        have hstuck : next.stuck = resolver.stuck := hstuck
        exact .error ⟨hstuck.symm ▸ hnext, hw.closed_iff.mp hr.closed⟩ hstuck he
  | @fault _ next inner before column rows arguments hnext hstuck hj hb hn => cases hf with
    | error hr =>
        -- nothing was being resolved when the request started
        have hinner : beingResolved (before ++ [.called column rows arguments]) = inner := hj ▸ hn
        have hbefore : beingResolved before = inner ++ [column.name] := hb
        dsimp only
        rw [hj]
        exact .fault ⟨hstuck.symm ▸ hnext, hw.closed_iff.mp hr.closed⟩ (hinner.symm ▸ hstuck)
          (hinner.symm ▸ hbefore)

namespace Outlived

variable {stuck : List String} {answer : Run Column × Resolver}

theorem lasting (h : view.Outlived name stuck answer) : view.Lasting answer.2 := by
  cases h with
  | ok hl | error hl | fault hl => exact hl

theorem endsAtCall (h : view.Outlived name stuck answer) : EndsAtCall answer.1 := by
  intro broken ho
  cases h with
  | ok => cases ho
  | error => cases ho
  | fault _ _ hb => exact ⟨_, _, _, _, rfl, hb⟩

theorem stuck_eq (h : view.Outlived name stuck answer) :
    answer.2.stuck = stuck ++ leftBehind answer.1 := by
  cases h with
  | ok _ hs | error _ hs => exact hs.trans (List.append_nil stuck).symm
  | fault _ hs _ => exact hs

theorem meaning (h : view.Outlived name stuck answer) {column : Column}
    (ho : answer.1.outcome = .ok column) : view.meaning name = .ok column := by
  cases h with
  | ok _ _ _ hm => exact hm.trans ho
  | error => cases ho
  | fault => cases ho

/-- What depends on a column on the path is not answered. -/
theorem ne_ok (h : view.Outlived name stuck answer) {needed : String} (hn : needed ∈ stuck)
    (hd : Relation.ReflTransGen view.DirectSource name needed) (column : Column) :
    answer.1.outcome ≠ .ok column := by
  cases h with
  | ok hl hs hk => exact absurd hk (hl.not_knows (hs ▸ hn) hd)
  | error => nofun
  | fault => nofun

/-- Only what depends on a column on the path is called a circle. -/
theorem exists_of_cyclic (hi : view.Invariant) (h : view.Outlived name stuck answer)
    {cycle : List String} (ho : answer.1.outcome = .error (.error (.cyclicDefinition cycle))) :
    ∃ needed ∈ stuck, Relation.ReflTransGen view.DirectSource name needed := by
  cases h with
  | ok => cases ho
  | error _ _ he =>
      cases ho
      rcases he with hm | hr
      · exact (hi.allowed_of_meaning hm).elim
      · cases hr with
        | cyclic hp hn => exact ⟨_, hp, hn⟩
  | fault => cases ho

end Outlived

end Requests

/-! ### One request after another -/

/-- **After any requests** the path holds what the answers left behind. -/
theorem Asked.lasting {view : View} (h : view.Invariant) {answers : List (Run Column)}
    {resolver : Resolver} (ha : view.Asked answers resolver) :
    view.Lasting resolver ∧ resolver.stuck = answers.flatMap leftBehind ∧
      ∀ answer ∈ answers, EndsAtCall answer := by
  induction ha with
  | fresh => exact ⟨view.lasting_fresh, rfl, fun _ hm => nomatch hm⟩
  | request _ hw name ih =>
      obtain ⟨hl, hstuck, hcalls⟩ := ih
      have hrequest := hw.outlived_request h hl name
      refine ⟨hrequest.lasting, ?_, fun answer hm => ?_⟩
      · rw [hrequest.stuck_eq, hstuck, List.flatMap_append, List.flatMap_singleton]
      · rcases List.mem_append.mp hm with hm | hm
        · exact hcalls answer hm
        · exact List.mem_singleton.mp hm ▸ hrequest.endsAtCall

/-- **A resolver that survived** functions that gave up never answers wrongly.  What its path holds
are the virtual columns whose sources were being resolved each time, outermost first and none twice,
without the column that the function was called for.  A column that is one of these, or depends on
one, is not answered any more; no other is called a circle; and every answer is what the column
means. -/
theorem Reachable.survival {view : View} (h : view.Reachable) {answers : List (Run Column)}
    {resolver : Resolver} (ha : view.Asked answers resolver) :
    resolver.stuck = answers.flatMap leftBehind ∧ (∀ answer ∈ answers, EndsAtCall answer) ∧
      resolver.stuck.Nodup ∧
      (∀ stuck ∈ resolver.stuck, ∃ column, view.virtualColumn? stuck = some column) ∧
      ∀ moody, view.Wavers moody → ∀ name,
        (∀ stuck ∈ resolver.stuck, Relation.ReflTransGen view.DirectSource name stuck →
          ∀ column, (moody.request name resolver).1.outcome ≠ .ok column) ∧
        (∀ cycle, (moody.request name resolver).1.outcome =
            .error (.error (.cyclicDefinition cycle)) →
          ∃ stuck ∈ resolver.stuck, Relation.ReflTransGen view.DirectSource name stuck) ∧
        ∀ column, (moody.request name resolver).1.outcome = .ok column →
          view.meaning name = .ok column := by
  have hi := h.invariant
  obtain ⟨hl, hstuck, hcalls⟩ := ha.lasting hi
  refine ⟨hstuck, hcalls, hl.held.nodup, hl.held.virtual, fun moody hw name => ?_⟩
  have hrequest := hw.outlived_request hi hl name
  exact ⟨fun _ hs hd => hrequest.ne_ok hs hd, fun _ ho => hrequest.exists_of_cyclic hi ho,
    fun _ ho => hrequest.meaning ho⟩

/-! ### Capitals that are not found -/

/-- The view of texts in a mood in which no capitals are found. -/
def fainting : View :=
  { capitals with
    functions := ⟨[("str_upper", fun _ => .error (.fault (.raised "no capitals"))),
      ("str_len", TextFunction.length.call)]⟩ }

theorem wavers_fainting : capitals.Wavers fainting where
  table := rfl
  mask := rfl
  maxDepth := rfl
  columns := fun name => by
    show Option.Rel _ (capitals.virtualColumn? name) (capitals.virtualColumn? name)
    cases hc : capitals.virtualColumn? name with
    | none => exact .none
    | some column =>
        obtain ⟨hm, -⟩ := reachable_capitals.invariant.virtualColumn?_eq_some_iff.mp hc
        rcases List.mem_cons.mp hm with rfl | hm
        · exact .some ⟨rfl, rfl, _, _, rfl, rfl, fun _ => .inr ⟨_, rfl⟩⟩
        · obtain rfl := List.mem_singleton.mp hm
          exact .some ⟨rfl, rfl, _, _, rfl, rfl, fun _ => .inl ⟨rfl, rfl⟩⟩

/-- The lengths need the capitals, and stay on the path when these are not found. -/
theorem stuck_fainting : (fainting.request "length" .fresh).2.stuck = ["length"] := by
  have hlength : fainting.virtualColumn? "length" = some ⟨"length", "str_len", ["capitals"]⟩ :=
    reachable_capitals.invariant.virtualColumn?_eq_some_iff.mpr ⟨by decide, rfl⟩
  have hcapitals : fainting.virtualColumn? "capitals" = some ⟨"capitals", "str_upper", ["text"]⟩ :=
    reachable_capitals.invariant.virtualColumn?_eq_some_iff.mpr ⟨by decide, rfl⟩
  have htext : fainting.virtualColumn? "text" = none :=
    reachable_capitals.invariant.virtualColumn?_eq_none_iff.mpr (by decide)
  let begun : Resolver := ⟨[], [], [.resolving [] ⟨"length", "str_len", ["capitals"]⟩]⟩
  let nested : Resolver := { begun with
    journal := begun.journal ++ [.resolving ["length"] ⟨"capitals", "str_upper", ["text"]⟩] }
  -- the text is gathered
  obtain ⟨texts, gathered, htexts⟩ : ∃ texts gathered,
      fainting.resolveAt 0 ["length", "capitals"] "text" nested = .ok texts gathered := by
    rw [resolveAt, htext]
    dsimp only
    rw [wavers_fainting.gather_eq, reachable_capitals.invariant.gather_eq _ rfl]
    exact ⟨_, _, rfl⟩
  have harguments : ["text"].mapM (fainting.resolveAt 0 ["length", "capitals"]) nested =
      .ok [texts] gathered := by
    rw [List.mapM_cons]
    exact (bind_of_ok htexts).trans (bind_of_ok rfl)
  -- the function gives up
  obtain ⟨broken, left, hleft, hstuck⟩ : ∃ broken left,
      fainting.resolveAt 1 ["length"] "capitals" begun = .error (.fault broken) left ∧
        left.stuck = ["length"] := by
    rw [resolveAt, hcapitals]
    exact ⟨_, _, remembered_of_error rfl
      ((bind_of_ok (record_run _ _)).trans (bind_of_ok harguments)), rfl⟩
  have hsources : ["capitals"].mapM (fainting.resolveAt 1 ["length"]) begun =
      .error (.fault broken) left := by
    rw [List.mapM_cons]
    exact bind_of_error hleft
  have hrequest : fainting.resolveAt 2 [] "length" .fresh = .error (.fault broken) left := by
    rw [resolveAt, hlength]
    exact remembered_of_error rfl ((bind_of_ok (record_run _ _)).trans (bind_of_error hsources))
  rw [request_of_error hrequest]
  exact hstuck

/-- The lengths are not answered any more, though the capitals could be found now. -/
theorem survival_capitals :
    capitals.Reachable ∧ capitals.Asked ([] ++ [(fainting.request "length" .fresh).1])
        (fainting.request "length" .fresh).2 ∧
      ∀ column, (capitals.request "length" (fainting.request "length" .fresh).2).1.outcome ≠
        .ok column := by
  have ha := Asked.fresh.request wavers_fainting "length"
  have h := (reachable_capitals.survival ha).2.2.2.2 capitals
    reachable_capitals.invariant.wavers_self "length"
  refine ⟨reachable_capitals, ha, h.1 "length" ?_ .refl⟩
  rw [stuck_fainting]
  exact List.mem_singleton_self "length"

end RowSieve.View

import Mathlib.Data.List.Perm.Subperm
import RowSieve.Proofs.View.Machine
import RowSieve.Proofs.View.Survival

/-!
# Requests end

Nothing counts down while a request is under way: sources are followed by name, and the limit on
the path may be as large as one likes.  The machine that takes a request step by step ends all the
same, with what the request is answered, for every column is begun once at most.

* `View.Leads.collect`: a frame collects its sources as a run over their list does.
* `View.Declares.reaches`: the machine ends with what is resolved.
* `View.Invariant.tidy_request`: a request leaves the stack in order, however it ends.
* `View.Reachable.requests_end`: every request ends, within a number of steps that does not depend
  on the limit, and what is on the stack meanwhile.
-/

namespace RowSieve

/-- A fault is handed over. -/
def Task.isFault : Task → Bool
  | .finish (.error (.fault _)) => true
  | _ => false

/-- Only at a fault is the resolver stuck elsewhere. -/
def Machine.StuckAt (stuck : List String) (machine : Machine) : Prop :=
  machine.task.isFault = true ∨ machine.resolver.stuck = stuck

namespace View

open Resolve

/-! ### Where the resolver is stuck -/

section StuckAt

variable {view : View} {stuck : List String} {machine after : Machine}

theorem Handed.stuckAt {path : List String} {name : String} {frames : List Frame}
    {resolver : Resolver} (h : Handed path name frames resolver machine)
    (hs : resolver.stuck = stuck) : machine.StuckAt stuck := by
  cases h with
  | ok hk _ => exact .inr (hk.trans hs)
  | error hk => exact .inr (hk.trans hs)
  | fault => exact .inl rfl

/-- **A step** changes where the resolver is stuck only if it is a fault. -/
theorem Moves.stuckAt (h : view.Moves machine after) (hs : machine.StuckAt stuck) :
    after.StuckAt stuck := by
  rcases hs with hb | hs
  · -- a fault stays one
    cases h with
    | leave => exact .inl hb
    | _ => cases hb
  · cases h with
    | known => exact .inr hs
    | found h => exact h.stuckAt hs
    | enter _ _ _ _ _ _ hk => exact .inr (hk.trans hs)
    | ask => exact .inr hs
    | call _ h => exact h.stuckAt hs
    | take => exact .inr hs
    | leave => exact .inr hs

theorem Runs.stuckAt {steps : Nat} (h : view.Runs machine steps after)
    (hs : machine.StuckAt stuck) : after.StuckAt stuck := by
  induction h with
  | done => exact hs
  | step hstep _ ih => exact ih ((moves_of_step hstep).stuckAt hs)

end StuckAt

/-! ### The machine ends with what is resolved -/

/-- So many steps lead from one machine to the other. -/
def Leads (view : View) (machine after : Machine) : Prop :=
  ∃ steps, view.Runs machine steps after

/-- Wherever the path is this one, the machine gets from a column to what the computation gives. -/
def Reaches (view : View) (path : List String) (name : String) (action : Resolve Column) : Prop :=
  ∀ frames resolver, resolver.stack frames = path →
    view.Leads ⟨.resolve name, frames, resolver⟩ (handed frames (action resolver))

/-- A frame that collected its sources, or that an error left. -/
def collected (frame : Frame) (frames : List Frame) :
    EStateM.Result (Abort EvalError) Resolver (List Column) → Machine
  | .ok found next =>
    ⟨.proceed, { frame with arguments := frame.arguments ++ found, pending := [] } :: frames, next⟩
  | .error cause next => handed frames (.error cause next)

section Reaches

variable {view : View} {path : List String} {name : String} {frames : List Frame}
  {resolver : Resolver}

theorem Leads.refl (view : View) (machine : Machine) : view.Leads machine machine :=
  ⟨0, .done machine⟩

theorem Leads.trans {first second third : Machine} (h : view.Leads first second)
    (hm : view.Leads second third) : view.Leads first third := by
  obtain ⟨steps, h⟩ := h
  obtain ⟨more, hm⟩ := hm
  exact ⟨steps + more, h.trans hm⟩

theorem Leads.head {first second third : Machine} (h : view.step first = some second)
    (hm : view.Leads second third) : view.Leads first third := by
  obtain ⟨steps, hm⟩ := hm
  exact ⟨steps + 1, .step h hm⟩

/-- Short of a fault, nothing changes where the resolver is stuck. -/
theorem Leads.stuck_eq {machine after : Machine} (h : view.Leads machine after)
    (ht : after.task.isFault = false) : after.resolver.stuck = machine.resolver.stuck := by
  obtain ⟨steps, h⟩ := h
  exact (h.stuckAt (.inr rfl)).resolve_left (Bool.eq_false_iff.mp ht)

/-- An error leaves the innermost frame; at a fault it is gone already. -/
theorem leads_leave (view : View) (frame : Frame) (frames : List Frame) (cause : Abort EvalError)
    (resolver : Resolver) :
    view.Leads (handed (frame :: frames) (.error cause resolver))
      (handed frames (.error cause resolver)) := by
  cases cause with
  | error error => exact .head rfl (.refl view _)
  | fault broken => exact .refl view _

/-- **A frame collects its sources** as a run over their list does. -/
theorem Leads.collect {action : String → Resolve Column} {frame : Frame}
    (h : ∀ source ∈ frame.pending, view.Reaches path source (action source))
    (hs : resolver.stack (frame :: frames) = path) :
    view.Leads ⟨.proceed, frame :: frames, resolver⟩
      (collected frame frames (frame.pending.mapM action resolver)) := by
  obtain ⟨column, function, arguments, pending⟩ := frame
  induction pending generalizing arguments resolver with
  | nil =>
      show view.Leads _ ⟨.proceed, ⟨column, function, arguments ++ [], []⟩ :: frames, resolver⟩
      rw [List.append_nil]
      exact .refl view _
  | cons source pending ih =>
      let rest : Frame := ⟨column, function, arguments, pending⟩
      obtain ⟨hsource, hpending⟩ := List.forall_mem_cons.mp h
      have hfound := hsource (rest :: frames) resolver hs
      refine .trans (.head rfl hfound) ?_
      dsimp only
      rw [List.mapM_cons]
      cases hr : action source resolver with
      | error cause next =>
          rw [bind_of_error hr]
          exact leads_leave view rest frames cause next
      | ok found next =>
          rw [hr] at hfound
          have hnext : next.stuck = resolver.stuck := hfound.stuck_eq rfl
          have hcollect := ih (arguments ++ [found]) hpending
            ((stack_of_stuck_eq hnext _).trans hs)
          rw [bind_of_ok hr]
          refine .head rfl (hcollect.trans ?_)
          cases hm : pending.mapM action next with
          | error cause last =>
              rw [bind_of_error hm]
              exact .refl view _
          | ok others last =>
              rw [bind_of_ok hm]
              show view.Leads
                ⟨.proceed, ⟨column, function, arguments ++ [found] ++ others, []⟩ :: frames, last⟩
                ⟨.proceed, ⟨column, function, arguments ++ found :: others, []⟩ :: frames, last⟩
              rw [List.append_assoc]
              exact .refl view _

/-- A frame that collected its sources is closed before its function is called. -/
theorem Leads.call {action : Resolve (List Column)} {column : VirtualColumn}
    {function : ColumnFunction} {pending : List String}
    (hs : ∀ arguments next, action resolver = .ok arguments next → next.stack frames = path) :
    view.Leads (collected ⟨column, function, [], pending⟩ frames (action resolver))
      (handed frames (keep column.name
        ((action >>= fun arguments => view.compute path column function arguments) resolver))) := by
  cases hr : action resolver with
  | error cause next =>
      rw [bind_of_error hr]
      exact .refl view _
  | ok arguments next =>
      rw [bind_of_ok hr, ← hs arguments next hr]
      exact .head rfl (.refl view _)

/-- What is remembered is handed over in one step. -/
theorem Reaches.remembered {action : Resolve Column}
    (h : ∀ frames resolver, resolver.stack frames = path → resolver.memo.lookup name = none →
      view.Leads ⟨.resolve name, frames, resolver⟩ (handed frames (keep name (action resolver)))) :
    view.Reaches path name (remembered name action) := by
  intro frames resolver hs
  cases hk : resolver.memo.lookup name with
  | some column =>
      rw [remembered_of_some hk]
      refine .head rfl ?_
      rw [enter, hk]
      exact .refl view _
  | none =>
      rw [remembered_of_none hk]
      exact h frames resolver hs hk

/-- What is found or refused at once is handed over in one step. -/
theorem Reaches.atOnce {action : Resolve Column}
    (h : ∀ frames resolver, resolver.stack frames = path → resolver.memo.lookup name = none →
      view.enter name frames resolver = handed frames (keep name (action resolver))) :
    view.Reaches path name (Resolve.remembered name action) := by
  refine .remembered fun frames resolver hs hk => .head rfl ?_
  rw [h frames resolver hs hk]
  exact .refl view _

/-- **The machine ends with what is resolved**, as long as the limit on the path is the one that is
kept. -/
theorem Declares.reaches {columns : List VirtualColumn} (hd : view.Declares columns) (room : Nat)
    (path : List String) (name : String) (hroom : room = view.maxDepth - path.length) :
    view.Reaches path name (view.resolveAt room path name) := by
  induction room, path, name using view.resolveAt_induction with
  | gather room path name hc =>
      refine .atOnce fun frames resolver hs hk => ?_
      rw [enter, hk, hs]
      dsimp only
      rw [hc]
  | cyclic room path name column hc hp =>
      refine .atOnce fun frames resolver hs hk => ?_
      rw [enter_of_virtual hk hc, descend, hs]
      exact if_pos hp
  | tooDeep path name column hc hp =>
      refine .atOnce fun frames resolver hs hk => ?_
      rw [enter_of_virtual hk hc, descend, hs]
      exact (if_neg hp).trans (if_pos (Nat.sub_eq_zero_iff_le.mp hroom.symm))
  | unknown room path name column hc hp hf =>
      refine .atOnce fun frames resolver hs hk => ?_
      rw [enter_of_virtual hk hc, descend, hs, if_neg hp, if_neg (by omega), hf]
      rfl
  | compute room path name column function hc hp hf ih =>
      refine .remembered fun frames resolver hs hk => ?_
      obtain rfl := (hd name column hc).1
      let begun : Frame := ⟨column, function, [], column.sources⟩
      let noted : Resolver :=
        { resolver with journal := resolver.journal ++ [.resolving path column] }
      -- the sources are resolved on a longer path
      have henter : view.enter column.name frames resolver = ⟨.proceed, begun :: frames, noted⟩ := by
        rw [enter_of_virtual hk hc, descend, hs, if_neg hp, if_neg (by omega), hf]
      have hstack : noted.stack (begun :: frames) = path ++ [column.name] := by
        rw [stack_cons]
        exact congrArg (· ++ [column.name]) hs
      have hless : room = view.maxDepth - (path ++ [column.name]).length := by
        rw [List.length_append, List.length_singleton]
        omega
      have hsources : view.Leads ⟨.proceed, begun :: frames, noted⟩ (collected begun frames
          (column.sources.mapM (view.resolveAt room (path ++ [column.name])) noted)) :=
        .collect (fun source hm => ih source hm hless) hstack
      rw [bind_of_ok (record_run _ _)]
      refine .head (congrArg some henter) (hsources.trans (.call fun arguments next hr => ?_))
      rw [hr] at hsources
      exact (stack_of_stuck_eq (hsources.stuck_eq rfl) frames).trans hs

/-- Nothing is left to be done when no frame is left. -/
theorem step_handed (result : EStateM.Result (Abort EvalError) Resolver Column) :
    view.step (handed [] result) = none := by
  rcases result with _ | ⟨_ | _, _⟩ <;> rfl

theorem result?_handed (result : EStateM.Result (Abort EvalError) Resolver Column) :
    (handed [] result).result? = some result := by
  rcases result with _ | ⟨_ | _, _⟩ <;> rfl

/-- **A request ends** with what it is answered. -/
theorem Declares.leads {columns : List VirtualColumn} (hd : view.Declares columns) (name : String)
    (resolver : Resolver) :
    view.Leads (.start name resolver) (handed [] (view.resolve name resolver)) :=
  hd.reaches _ _ name rfl [] resolver (stack_nil resolver)

end Reaches

/-! ### What every view declares -/

/-- The first column is declared strictly before the second. -/
def DeclaredBefore (view : View) (source name : String) : Prop :=
  ∃ earlier later : Nat, earlier < later ∧ view.virtualNames[earlier]? = some source ∧
    view.virtualNames[later]? = some name

section Declared

variable {view moody : View}

theorem Wavers.declares (hw : view.Wavers moody) (h : view.Invariant) :
    moody.Declares view.virtuals := by
  intro name other ho
  obtain ⟨column, hc, hname, hsources, -⟩ := hw.exists_of_moody ho
  obtain ⟨hm, rfl⟩ := h.virtualColumn?_eq_some_iff.mp hc
  exact ⟨hname, column, hm, rfl, hsources.symm⟩

/-- Which stacks are in order is not a matter of mood. -/
theorem Wavers.tidy_iff (hw : view.Wavers moody) {stack : List String} :
    moody.Tidy stack ↔ view.Tidy stack := by
  have hvirtual : ∀ name, (∃ column, moody.virtualColumn? name = some column) ↔
      ∃ column, view.virtualColumn? name = some column := fun name =>
    ⟨fun ⟨_, ho⟩ => (hw.exists_of_moody ho).imp fun _ h => h.1,
      fun ⟨_, hc⟩ => (hw.exists_of_base hc).imp fun _ h => h.1⟩
  constructor
  · rintro ⟨hnodup, hall, hlength⟩
    exact ⟨hnodup, fun name hn => (hvirtual name).mp (hall name hn), hw.maxDepth ▸ hlength⟩
  · rintro ⟨hnodup, hall, hlength⟩
    exact ⟨hnodup, fun name hn => (hvirtual name).mpr (hall name hn), hw.maxDepth.symm ▸ hlength⟩

/-- No stack in order is longer than there are virtual columns. -/
theorem Tidy.length_le_virtuals {stack : List String} (h : view.Tidy stack) (hi : view.Invariant) :
    stack.length ≤ view.virtuals.length := by
  have hsub : stack ⊆ view.virtualNames := by
    intro name hn
    obtain ⟨column, hc⟩ := h.virtual name hn
    obtain ⟨hm, rfl⟩ := hi.virtualColumn?_eq_some_iff.mp hc
    exact List.mem_map_of_mem hm
  have hle := (h.nodup.subperm hsub).length_le
  rwa [virtualNames, List.length_map] at hle

/-- A source is stored, or declared strictly before what it is a source of. -/
theorem Invariant.stored_or_declaredBefore (h : view.Invariant) {name source : String}
    (hs : view.DirectSource name source) :
    source ∈ view.table.names ∨ view.DeclaredBefore source name := by
  obtain ⟨column, hc, hs⟩ := hs
  obtain ⟨hm, rfl⟩ := h.virtualColumn?_eq_some_iff.mp hc
  obtain ⟨later, hl⟩ := List.mem_iff_getElem?.mp hm
  refine (h.sources later column hl source hs).imp_right ?_
  rintro ⟨earlier, hlt, he⟩
  exact ⟨earlier, later, hlt, he, by rw [virtualNames, List.getElem?_map, hl]; rfl⟩

end Declared

/-! ### Every request ends -/

section Requests

variable {view moody : View} {resolver : Resolver} {name : String}

/-- **At every moment of a request**, whatever its resolver remembers. -/
theorem Wavers.kept (hw : view.Wavers moody) (h : view.Invariant)
    (ht : view.Tidy resolver.stuck) {steps : Nat} {machine : Machine}
    (hr : moody.Runs (.start name resolver) steps machine) :
    view.Tidy machine.stack ∧ moody.Nested machine := by
  have hstack : moody.Tidy (Machine.start name resolver).stack := by
    show moody.Tidy (resolver.stack [])
    rw [stack_nil, hw.tidy_iff]
    exact ht
  have hkept := hr.kept (hw.declares h) hstack ⟨nofun, nofun⟩
  exact ⟨hw.tidy_iff.mp hkept.1, hkept.2⟩

/-- **A request leaves the stack in order**, however it ends. -/
theorem Invariant.tidy_request (h : view.Invariant) (hw : view.Wavers moody)
    (ht : view.Tidy resolver.stuck) (name : String) :
    view.Tidy (moody.request name resolver).2.stuck := by
  let asked : Resolver := { resolver with journal := [] }
  obtain ⟨steps, hr⟩ := (hw.declares h).leads name asked
  have hasked : view.Tidy asked.stuck := ht
  have htidy : view.Tidy (handed [] (moody.resolve name asked)).stack := (hw.kept h hasked hr).1
  have hresolve : moody.resolve name asked =
      moody.resolveAt (moody.maxDepth - resolver.stuck.length) resolver.stuck name asked := rfl
  rw [request_eq_resolveAt, ← hresolve]
  generalize moody.resolve name asked = result at htidy
  rcases result with ⟨_, next⟩ | ⟨_ | _, next⟩
  all_goals exact stack_nil next ▸ htidy

/-- After any requests the stack is in order. -/
theorem Asked.tidy (h : view.Invariant) {answers : List (Run Column)}
    (ha : view.Asked answers resolver) : view.Tidy resolver.stuck := by
  induction ha with
  | fresh => exact view.tidy_nil
  | request _ hw name ih => exact h.tidy_request hw ih name

/-- The steps that a request can take, by the declarations alone. -/
def stepLimit (view : View) : Nat :=
  2 + (view.virtuals.map fun column => 3 * column.sources.length + 1).sum

theorem potential_start_le (view : View) (name : String) (resolver : Resolver) :
    potential view.virtuals (.start name resolver) ≤ view.stepLimit := by
  refine Nat.add_le_add_left (List.sum_le_sum fun column _ => ?_) 2
  split
  next => exact Nat.le_refl _
  next => exact Nat.zero_le _

/-- **Every request ends**, whatever the limit on the path: the machine that takes it step by step
stops with what the request is answered, after a number of steps that only the declarations bound.
At every moment its stack holds virtual columns, none twice, and no more than the limit allows nor
than there are; and what a virtual column makes it resolve next is stored, or declared strictly
before it.  All this holds as well where functions gave up before and left columns on the stack. -/
theorem Reachable.requests_end {view : View} (h : view.Reachable) :
    (∀ answers resolver, view.Asked answers resolver → view.Tidy resolver.stuck) ∧
      ∀ moody, view.Wavers moody → ∀ resolver, view.Tidy resolver.stuck → ∀ name,
        (∃ steps final, moody.Runs (.start name resolver) steps final ∧
          moody.step final = none ∧ final.result? = some (moody.resolve name resolver)) ∧
        ∀ steps machine, moody.Runs (.start name resolver) steps machine →
          steps ≤ view.stepLimit ∧ machine.stack.Nodup ∧
            (∀ entry ∈ machine.stack, ∃ column ∈ view.virtuals, column.name = entry) ∧
            machine.stack.length ≤ min view.maxDepth view.virtuals.length ∧
            ∀ source, machine.task = .resolve source → ∀ frame ∈ machine.frames.head?,
              source ∈ view.table.names ∨ view.DeclaredBefore source frame.column.name := by
  have hi := h.invariant
  refine ⟨fun answers resolver ha => ha.tidy hi, ?_⟩
  intro moody hw resolver ht name
  refine ⟨?_, fun steps machine hr => ?_⟩
  · obtain ⟨steps, hr⟩ := (hw.declares hi).leads name resolver
    exact ⟨steps, _, hr, step_handed _, result?_handed _⟩
  · have hsteps := hr.add_potential_le (hw.declares hi)
    have hlimit := view.potential_start_le name resolver
    obtain ⟨htidy, hnested⟩ := hw.kept hi ht hr
    refine ⟨by omega, htidy.nodup, fun entry he => ?_,
      le_min htidy.length_le (htidy.length_le_virtuals hi), fun source hn frame hf => ?_⟩
    · obtain ⟨column, hc⟩ := htidy.virtual entry he
      exact ⟨column, hi.virtualColumn?_eq_some_iff.mp hc⟩
    · have hsource := hnested.next source hn frame hf
      rw [hw.directSource_eq] at hsource
      exact hi.stored_or_declaredBefore hsource

/-- The lengths are on the stack for good once no capitals were found for them, and the next request
for them ends all the same. -/
theorem requests_end_capitals :
    capitals.Reachable ∧
      capitals.Asked ([] ++ [(fainting.request "length" .fresh).1])
        (fainting.request "length" .fresh).2 ∧
      (fainting.request "length" .fresh).2.stuck = ["length"] ∧
      ∃ steps final,
        capitals.Runs (.start "length" (fainting.request "length" .fresh).2) steps final ∧
          steps ≤ 10 ∧ capitals.step final = none := by
  have ha := Asked.fresh.request wavers_fainting "length"
  obtain ⟨htidy, hends⟩ := reachable_capitals.requests_end
  obtain ⟨⟨steps, final, hr, hdone, -⟩, hkept⟩ := hends capitals
    reachable_capitals.invariant.wavers_self _ (htidy _ _ ha) "length"
  exact ⟨reachable_capitals, ha, stuck_fainting, steps, final, hr, (hkept steps final hr).1, hdone⟩

end Requests

end View

end RowSieve

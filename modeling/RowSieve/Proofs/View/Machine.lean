import Mathlib.Algebra.GroupWithZero.Nat
import Mathlib.Algebra.Order.BigOperators.Group.List
import Mathlib.Algebra.Order.Group.Nat
import RowSieve.Proofs.View.Memory

/-!
# Requests step by step

A request can be watched while it is under way.  A machine resolves one column at a time and keeps a
frame for every virtual column whose sources are being resolved; the names of the frames, behind the
path that the resolver is stuck at, are the stack of that moment.

* `View.step`: what happens next, and `View.moves_of_step`: the ways in which a machine moves.
* `View.Moves.potential_lt`: every step takes away some of a number that the declarations bound, so
  `View.Runs.add_potential_le`: a run of `n` steps took away `n`.
* `View.Moves.tidy`: a step leaves the stack tidy, with no column twice and no more than there is
  room for, and `View.Moves.nested`: what is resolved next is a source of the innermost frame.
  Both hold throughout a run (`View.Runs.kept`).
-/

namespace RowSieve

/-! ### Machines -/

/-- A virtual column whose sources are being resolved: its function, the columns that sources have
given, and the sources that are left. -/
structure Frame where
  column : VirtualColumn
  function : ColumnFunction
  arguments : List Column
  pending : List String

/-- What is to be done next. -/
inductive Task where
  /-- Resolve a column. -/
  | resolve (name : String)
  /-- Go on with the innermost frame. -/
  | proceed
  /-- Hand a column to the innermost frame, or leave it. -/
  | finish (outcome : Outcome EvalError Column)

/-- **A request under way**: its frames, innermost first, and the resolver. -/
structure Machine where
  task : Task
  frames : List Frame
  resolver : Resolver

/-- The columns on the path, outermost first: those that the resolver is stuck at and those of the
frames. -/
def Resolver.stack (resolver : Resolver) (frames : List Frame) : List String :=
  resolver.stuck ++ (frames.map (·.column.name)).reverse

/-- **The stack of the moment.** -/
def Machine.stack (machine : Machine) : List String :=
  machine.resolver.stack machine.frames

/-- The request for a column, before its first step. -/
def Machine.start (name : String) (resolver : Resolver) : Machine :=
  ⟨.resolve name, [], resolver⟩

/-- What a request ended with; none while it is under way. -/
def Machine.result? : Machine → Option (EStateM.Result (Abort EvalError) Resolver Column)
  | ⟨.finish (.ok column), [], resolver⟩ => some (.ok column resolver)
  | ⟨.finish (.error cause), [], resolver⟩ => some (.error cause resolver)
  | _ => none

namespace View

/-- A column that was found is remembered. -/
def keep (name : String) : EStateM.Result (Abort EvalError) Resolver Column →
    EStateM.Result (Abort EvalError) Resolver Column
  | .ok column next => .ok column { next with memo := (name, column) :: next.memo }
  | .error cause next => .error cause next

/-- What was found is handed to the frames.  A fault leaves no frame: their names are where the
resolver is stuck. -/
def handed (frames : List Frame) : EStateM.Result (Abort EvalError) Resolver Column → Machine
  | .ok column next => ⟨.finish (.ok column), frames, next⟩
  | .error (.error error) next => ⟨.finish (.error (.error error)), frames, next⟩
  | .error (.fault broken) next => ⟨.finish (.error (.fault broken)), [], next⟩

/-- Begin with a virtual column: it gets a frame, unless this is refused. -/
def descend (view : View) (name : String) (column : VirtualColumn) (frames : List Frame)
    (resolver : Resolver) : Machine :=
  let stack := resolver.stack frames
  if name ∈ stack then
    handed frames
      (.error (.error (.cyclicDefinition (stack.dropWhile (· ≠ name) ++ [name]))) resolver)
  else if view.maxDepth ≤ stack.length then
    handed frames (.error (.error (.definitionTooDeep name view.maxDepth)) resolver)
  else
    match view.functions.get? column.function with
    | none => handed frames (.error (.error (.unknownFunction column.function)) resolver)
    | some function =>
      ⟨.proceed, ⟨column, function, [], column.sources⟩ :: frames,
        { resolver with journal := resolver.journal ++ [.resolving stack column] }⟩

/-- Begin with a column: it is remembered, or gathered, or virtual. -/
def enter (view : View) (name : String) (frames : List Frame) (resolver : Resolver) : Machine :=
  match resolver.memo.lookup name with
  | some column => ⟨.finish (.ok column), frames, resolver⟩
  | none =>
    match view.virtualColumn? name with
    | none => handed frames (keep name (view.gather (resolver.stack frames) name resolver))
    | some column => view.descend name column frames resolver

/-- Go on with a frame: its next source is resolved, or it is closed and its function called. -/
def goOn (view : View) (frame : Frame) (frames : List Frame) (resolver : Resolver) : Machine :=
  match frame.pending with
  | source :: pending => ⟨.resolve source, { frame with pending } :: frames, resolver⟩
  | [] =>
    handed frames (keep frame.column.name
      (view.compute (resolver.stack frames) frame.column frame.function frame.arguments resolver))

/-- **What happens next.**  A request ends when nothing is left to be done and no frame is open. -/
def step (view : View) : Machine → Option Machine
  | ⟨.resolve name, frames, resolver⟩ => some (view.enter name frames resolver)
  | ⟨.proceed, frame :: frames, resolver⟩ => some (view.goOn frame frames resolver)
  | ⟨.finish (.ok column), frame :: frames, resolver⟩ =>
    some ⟨.proceed, { frame with arguments := frame.arguments ++ [column] } :: frames, resolver⟩
  | ⟨.finish (.error cause), _ :: frames, resolver⟩ =>
    some ⟨.finish (.error cause), frames, resolver⟩
  | ⟨_, [], _⟩ => none

/-- **A run** of so many steps. -/
inductive Runs (view : View) : Machine → Nat → Machine → Prop where
  | done (machine : Machine) : Runs view machine 0 machine
  | step {machine next final : Machine} {steps : Nat} (h : view.step machine = some next)
      (hr : Runs view next steps final) : Runs view machine (steps + 1) final

/-! ### How a machine moves -/

/-- What was found, with the path of that moment: only a fault changes where the resolver is stuck,
and only a column that was found is remembered. -/
inductive Handed (path : List String) (name : String) (frames : List Frame) (resolver : Resolver) :
    Machine → Prop where
  | ok {column : Column} {next : Resolver} (hs : next.stuck = resolver.stuck)
      (hm : next.memo = (name, column) :: resolver.memo) :
      Handed path name frames resolver ⟨.finish (.ok column), frames, next⟩
  | error {error : EvalError} {next : Resolver} (hs : next.stuck = resolver.stuck) :
      Handed path name frames resolver ⟨.finish (.error (.error error)), frames, next⟩
  | fault {broken : Fault} {next : Resolver} (hs : next.stuck = path) :
      Handed path name frames resolver ⟨.finish (.error (.fault broken)), [], next⟩

/-- **The ways in which a machine moves.** -/
inductive Moves (view : View) : Machine → Machine → Prop where
  | known {name : String} {frames : List Frame} {resolver : Resolver} {column : Column}
      (hk : resolver.memo.lookup name = some column) :
      Moves view ⟨.resolve name, frames, resolver⟩ ⟨.finish (.ok column), frames, resolver⟩
  | found {name : String} {frames : List Frame} {resolver : Resolver} {next : Machine}
      (h : Handed (resolver.stack frames) name frames resolver next) :
      Moves view ⟨.resolve name, frames, resolver⟩ next
  | enter {name : String} {frames : List Frame} {resolver noted : Resolver}
      {column : VirtualColumn} {function : ColumnFunction}
      (hk : resolver.memo.lookup name = none) (hc : view.virtualColumn? name = some column)
      (hp : name ∉ resolver.stack frames)
      (hroom : (resolver.stack frames).length < view.maxDepth)
      (hf : view.functions.get? column.function = some function)
      (hm : noted.memo = resolver.memo) (hs : noted.stuck = resolver.stuck) :
      Moves view ⟨.resolve name, frames, resolver⟩
        ⟨.proceed, ⟨column, function, [], column.sources⟩ :: frames, noted⟩
  | ask {frame : Frame} {frames : List Frame} {resolver : Resolver} {source : String}
      {pending : List String} (hp : frame.pending = source :: pending) :
      Moves view ⟨.proceed, frame :: frames, resolver⟩
        ⟨.resolve source, { frame with pending } :: frames, resolver⟩
  | call {frame : Frame} {frames : List Frame} {resolver : Resolver} {next : Machine}
      (hp : frame.pending = [])
      (h : Handed (resolver.stack frames) frame.column.name frames resolver next) :
      Moves view ⟨.proceed, frame :: frames, resolver⟩ next
  | take {column : Column} {frame : Frame} {frames : List Frame} {resolver : Resolver} :
      Moves view ⟨.finish (.ok column), frame :: frames, resolver⟩
        ⟨.proceed, { frame with arguments := frame.arguments ++ [column] } :: frames, resolver⟩
  | leave {cause : Abort EvalError} {frame : Frame} {frames : List Frame} {resolver : Resolver} :
      Moves view ⟨.finish (.error cause), frame :: frames, resolver⟩
        ⟨.finish (.error cause), frames, resolver⟩

section Moves

variable {view : View} {path : List String} {name : String} {frames : List Frame}
  {resolver : Resolver}

/-- After an event, an outcome is taken over. -/
theorem handed_settle (event : Event) (outcome : Outcome EvalError Column) :
    Handed path name frames resolver (handed frames
      (keep name ((Resolve.record event >>= fun _ => Resolve.settle path outcome) resolver))) := by
  rcases outcome with (error | broken) | column
  · exact .error rfl
  · exact .fault rfl
  · exact .ok rfl rfl

theorem handed_gather :
    Handed path name frames resolver
      (handed frames (keep name (view.gather path name resolver))) := by
  rw [gather]
  cases view.table.get? name with
  | none => exact .error rfl
  | some stored =>
      dsimp only
      cases view.mask with
      | none => exact handed_settle _ (.ok stored)
      | some mask => exact handed_settle _ _

theorem handed_compute (column : VirtualColumn) (function : ColumnFunction)
    (arguments : List Column) :
    Handed path name frames resolver
      (handed frames (keep name (view.compute path column function arguments resolver))) := by
  rw [compute_eq]
  exact handed_settle _ _

theorem enter_of_virtual {column : VirtualColumn} (hk : resolver.memo.lookup name = none)
    (hc : view.virtualColumn? name = some column) :
    view.enter name frames resolver = view.descend name column frames resolver := by
  rw [enter, hk]
  dsimp only
  rw [hc]

theorem moves_descend {column : VirtualColumn} (hk : resolver.memo.lookup name = none)
    (hc : view.virtualColumn? name = some column) :
    view.Moves ⟨.resolve name, frames, resolver⟩ (view.descend name column frames resolver) := by
  rw [descend]
  split
  next => exact .found (.error rfl)
  next hp =>
    split
    next => exact .found (.error rfl)
    next hroom =>
      split
      next => exact .found (.error rfl)
      next function hf => exact .enter hk hc hp (Nat.lt_of_not_le hroom) hf rfl rfl

theorem moves_enter (view : View) (name : String) (frames : List Frame) (resolver : Resolver) :
    view.Moves ⟨.resolve name, frames, resolver⟩ (view.enter name frames resolver) := by
  rw [enter]
  split
  next column hk => exact .known hk
  next hk =>
    split
    next => exact .found handed_gather
    next column hc => exact moves_descend hk hc

theorem moves_goOn (view : View) (frame : Frame) (frames : List Frame) (resolver : Resolver) :
    view.Moves ⟨.proceed, frame :: frames, resolver⟩ (view.goOn frame frames resolver) := by
  rw [goOn]
  split
  next source pending hp => exact .ask hp
  next hp => exact .call hp (handed_compute _ _ _)

/-- **Every step is one of these moves.** -/
theorem moves_of_step {machine next : Machine} (h : view.step machine = some next) :
    view.Moves machine next := by
  obtain ⟨task, frames, resolver⟩ := machine
  cases task with
  | resolve name =>
      obtain rfl := Option.some.inj h
      exact moves_enter view name frames resolver
  | proceed =>
      cases frames with
      | nil => cases h
      | cons frame frames =>
          obtain rfl := Option.some.inj h
          exact moves_goOn view frame frames resolver
  | finish outcome =>
      cases frames with
      | nil => cases outcome <;> cases h
      | cons frame frames =>
          cases outcome with
          | ok column =>
              obtain rfl := Option.some.inj h
              exact .take
          | error cause =>
              obtain rfl := Option.some.inj h
              exact .leave

end Moves

/-! ### How long a request can take -/

/-- No frame is open for the column, and it is not remembered. -/
def untouched (frames : List Frame) (resolver : Resolver) (name : String) : Bool :=
  name ∉ frames.map (·.column.name) && (resolver.memo.lookup name).isNone

/-- The steps that those of the virtual columns can still take that were not begun yet. -/
def reserve (frames : List Frame) (resolver : Resolver) (columns : List VirtualColumn) : Nat :=
  (columns.map fun column =>
    if untouched frames resolver column.name then 3 * column.sources.length + 1 else 0).sum

/-- The steps that the open frames can still take, apart from columns that were not begun yet. -/
def due (frames : List Frame) : Nat :=
  (frames.map fun frame => 3 * frame.pending.length + 2).sum

/-- **The steps that a request can still take**, where these are the virtual columns. -/
def potential (columns : List VirtualColumn) : Machine → Nat
  | ⟨.resolve _, frames, resolver⟩ => 2 + due frames + reserve frames resolver columns
  | ⟨.proceed, frames, resolver⟩ => due frames + reserve frames resolver columns
  | ⟨.finish (.ok _), frames, resolver⟩ => 1 + due frames + reserve frames resolver columns
  | ⟨.finish (.error _), frames, _⟩ => frames.length

/-- These are the virtual columns: each has its own name, and sources listed here. -/
def Declares (view : View) (columns : List VirtualColumn) : Prop :=
  ∀ name column, view.virtualColumn? name = some column → column.name = name ∧
    ∃ declared ∈ columns, declared.name = name ∧ declared.sources = column.sources

section Potential

variable {view : View} {frames others : List Frame} {resolver next : Resolver}

theorem untouched_iff {name : String} :
    untouched frames resolver name = true ↔
      name ∉ frames.map (·.column.name) ∧ resolver.memo.lookup name = none := by
  simp [untouched]

theorem due_cons (frame : Frame) (frames : List Frame) :
    due (frame :: frames) = 3 * frame.pending.length + 2 + due frames := by
  rw [due, due, List.map_cons, List.sum_cons]

theorem length_le_due (frames : List Frame) : frames.length ≤ due frames := by
  induction frames with
  | nil => exact Nat.zero_le _
  | cons frame frames ih =>
      rw [due_cons, List.length_cons]
      omega

/-- Fewer columns that were not begun take fewer steps. -/
theorem reserve_le (h : ∀ name, untouched others next name = true →
    untouched frames resolver name = true) (columns : List VirtualColumn) :
    reserve others next columns ≤ reserve frames resolver columns := by
  refine List.sum_le_sum fun column _ => ?_
  split
  next hother => rw [if_pos (h _ hother)]
  next => exact Nat.zero_le _

/-- A column that is begun takes its steps out of the reserve. -/
theorem reserve_add_le {column : VirtualColumn} {columns : List VirtualColumn}
    (hc : column ∈ columns) (hfresh : untouched frames resolver column.name = true)
    (hbegun : untouched others next column.name = false)
    (h : ∀ name, untouched others next name = true → untouched frames resolver name = true) :
    reserve others next columns + (3 * column.sources.length + 1) ≤
      reserve frames resolver columns := by
  obtain ⟨before, after, rfl⟩ := List.append_of_mem hc
  have hbefore := reserve_le h before
  have hafter := reserve_le h after
  simp only [reserve, List.map_append, List.map_cons, List.sum_append, List.sum_cons, hfresh,
    hbegun, if_true, Bool.false_eq_true, if_false] at hbefore hafter ⊢
  omega

/-- A virtual column that gets a frame takes its steps out of the reserve. -/
theorem Declares.reserve_add_le {columns : List VirtualColumn} (hd : view.Declares columns)
    {name : String} {column : VirtualColumn} (function : ColumnFunction)
    (hk : resolver.memo.lookup name = none) (hc : view.virtualColumn? name = some column)
    (hopen : name ∉ frames.map (·.column.name)) (hm : next.memo = resolver.memo) :
    reserve (⟨column, function, [], column.sources⟩ :: frames) next columns +
        (3 * column.sources.length + 1) ≤ reserve frames resolver columns := by
  obtain ⟨rfl, declared, hmem, hname, hsources⟩ := hd name column hc
  rw [← hsources]
  refine View.reserve_add_le hmem ?_ ?_ fun other ho => ?_
  · rw [untouched_iff, hname]
    exact ⟨hopen, hk⟩
  · simp [untouched, hname]
  · rw [untouched_iff, hm] at ho
    rw [untouched_iff]
    exact ⟨fun hn => ho.1 (List.mem_cons_of_mem _ hn), ho.2⟩

/-- What is not remembered now is not the column just found, and was not remembered before. -/
theorem lookup_of_insert {name other : String} {column : Column}
    (hm : next.memo = (name, column) :: resolver.memo) (h : next.memo.lookup other = none) :
    other ≠ name ∧ resolver.memo.lookup other = none := by
  rw [hm, List.lookup_cons] at h
  split at h
  next => cases h
  next he => exact ⟨by simpa using he, h⟩

/-- What was found leaves no more than the frames and the reserve. -/
theorem Handed.potential_le {path : List String} {name : String} {machine : Machine}
    {reserved : Nat} (columns : List VirtualColumn)
    (h : Handed path name frames resolver machine)
    (hr : ∀ (column : Column) (next : Resolver), next.memo = (name, column) :: resolver.memo →
      reserve frames next columns ≤ reserved) :
    potential columns machine ≤ 1 + due frames + reserved := by
  cases h with
  | ok hs hm => exact Nat.add_le_add_left (hr _ _ hm) _
  | error =>
      have hlength := length_le_due frames
      simp only [potential]
      omega
  | fault => exact Nat.zero_le _

/-- **Every step takes away** some of the steps that a request can still take. -/
theorem Moves.potential_lt {columns : List VirtualColumn} (hd : view.Declares columns)
    {machine after : Machine} (h : view.Moves machine after) :
    potential columns after < potential columns machine := by
  cases h with
  | @known name frames resolver column hk =>
      show 1 + due frames + reserve frames resolver columns <
        2 + due frames + reserve frames resolver columns
      omega
  | @found name frames resolver _ h =>
      have hle := h.potential_le columns fun column next hm =>
        reserve_le (fun other ho => by
          rw [untouched_iff] at ho ⊢
          exact ⟨ho.1, (lookup_of_insert hm ho.2).2⟩) columns
      show _ < 2 + due frames + reserve frames resolver columns
      omega
  | @enter name frames resolver noted column function hk hc hp hroom hf hm hs =>
      have hopen : name ∉ frames.map (·.column.name) := fun hn =>
        hp (List.mem_append_right _ (List.mem_reverse.mpr hn))
      have hle := hd.reserve_add_le function hk hc hopen hm
      show due (_ :: frames) + reserve (_ :: frames) noted columns <
        2 + due frames + reserve frames resolver columns
      rw [due_cons]
      dsimp only
      omega
  | @ask frame frames resolver source pending hp =>
      show 2 + due ({ frame with pending } :: frames) + reserve (frame :: frames) resolver columns <
        due (frame :: frames) + reserve (frame :: frames) resolver columns
      rw [due_cons, due_cons, hp, List.length_cons]
      dsimp only
      omega
  | @call frame frames resolver _ hp h =>
      have hle : potential columns after ≤
          1 + due frames + reserve (frame :: frames) resolver columns := by
        refine h.potential_le columns fun column next hm => reserve_le (fun other ho => ?_) columns
        rw [untouched_iff] at ho ⊢
        obtain ⟨hne, hnone⟩ := lookup_of_insert hm ho.2
        exact ⟨List.not_mem_cons_of_ne_of_not_mem hne ho.1, hnone⟩
      show _ < due (frame :: frames) + reserve (frame :: frames) resolver columns
      rw [due_cons, hp]
      omega
  | @take column frame frames resolver =>
      show due (frame :: frames) + reserve (frame :: frames) resolver columns <
        1 + due (frame :: frames) + reserve (frame :: frames) resolver columns
      omega
  | leave => exact Nat.lt_succ_self _

/-- **A run of so many steps** took away as many. -/
theorem Runs.add_potential_le {columns : List VirtualColumn} (hd : view.Declares columns)
    {machine final : Machine} {steps : Nat} (h : view.Runs machine steps final) :
    steps + potential columns final ≤ potential columns machine := by
  induction h with
  | done machine => exact Nat.le_of_eq (Nat.zero_add _)
  | step hstep _ ih =>
      have hlt := (moves_of_step hstep).potential_lt hd
      omega

theorem Runs.trans {first second third : Machine} {steps more : Nat}
    (h : view.Runs first steps second) (hm : view.Runs second more third) :
    view.Runs first (steps + more) third := by
  induction h with
  | done => exact (Nat.zero_add more).symm ▸ hm
  | step hstep _ ih => exact Nat.add_right_comm _ _ _ ▸ .step hstep (ih hm)

end Potential

/-! ### The stack -/

/-- **A stack in order**: no column twice, all of them virtual, and no more than there is room
for. -/
structure Tidy (view : View) (stack : List String) : Prop where
  nodup : stack.Nodup
  virtual : ∀ name ∈ stack, ∃ column, view.virtualColumn? name = some column
  length_le : stack.length ≤ view.maxDepth

/-- What is resolved next is a source of the innermost frame, and what is left to any frame are
sources of its column. -/
structure Nested (view : View) (machine : Machine) : Prop where
  next : ∀ name, machine.task = .resolve name → ∀ frame ∈ machine.frames.head?,
    view.DirectSource frame.column.name name
  left : ∀ frame ∈ machine.frames, ∀ source ∈ frame.pending,
    view.DirectSource frame.column.name source

section Stack

variable {view : View} {columns : List VirtualColumn} {machine after : Machine}

theorem tidy_nil (view : View) : view.Tidy [] :=
  ⟨List.nodup_nil, by simp, Nat.zero_le _⟩

/-- What is left of a stack in order is in order. -/
theorem Tidy.of_isPrefix {stack shorter : List String} (h : view.Tidy stack)
    (hp : shorter <+: stack) : view.Tidy shorter where
  nodup := h.nodup.sublist hp.sublist
  virtual := fun name hn => h.virtual name (hp.subset hn)
  length_le := Nat.le_trans hp.length_le h.length_le

theorem Tidy.push {stack : List String} (h : view.Tidy stack) {name : String}
    (hp : name ∉ stack) (hv : ∃ column, view.virtualColumn? name = some column)
    (hroom : stack.length < view.maxDepth) : view.Tidy (stack ++ [name]) where
  nodup := h.nodup.append (List.nodup_singleton name) (List.disjoint_singleton.mpr hp)
  virtual := fun other ho => (List.mem_append.mp ho).elim (h.virtual other) fun ho =>
    List.mem_singleton.mp ho ▸ hv
  length_le := by
    rw [List.length_append]
    exact hroom

theorem stack_nil (resolver : Resolver) : resolver.stack [] = resolver.stuck :=
  List.append_nil _

theorem stack_cons (resolver : Resolver) (frame : Frame) (frames : List Frame) :
    resolver.stack (frame :: frames) = resolver.stack frames ++ [frame.column.name] := by
  simp [Resolver.stack]

theorem stack_isPrefix_cons (resolver : Resolver) (frame : Frame) (frames : List Frame) :
    resolver.stack frames <+: resolver.stack (frame :: frames) := by
  rw [stack_cons]
  exact List.prefix_append _ _

theorem stack_of_stuck_eq {resolver next : Resolver} (hs : next.stuck = resolver.stuck)
    (frames : List Frame) : next.stack frames = resolver.stack frames := by
  rw [Resolver.stack, Resolver.stack, hs]

/-- However what was found is handed over, the stack is that of the frames. -/
theorem Handed.stack_eq {name : String} {frames : List Frame} {resolver : Resolver}
    (h : Handed (resolver.stack frames) name frames resolver machine) :
    machine.stack = resolver.stack frames := by
  cases h with
  | ok hs _ => exact stack_of_stuck_eq hs frames
  | error hs => exact stack_of_stuck_eq hs frames
  | fault hs => exact (stack_nil _).trans hs

/-- **Every step leaves the stack in order**: it drops columns from its end, or puts there a virtual
column that was not on it, as long as there is room. -/
theorem Moves.tidy (hd : view.Declares columns) (h : view.Moves machine after)
    (ht : view.Tidy machine.stack) : view.Tidy after.stack := by
  cases h with
  | known => exact ht
  | found h => exact h.stack_eq ▸ ht
  | @enter name frames resolver noted column function hk hc hp hroom hf hm hs =>
      obtain rfl := (hd name column hc).1
      show view.Tidy (noted.stack (_ :: frames))
      rw [stack_of_stuck_eq hs, stack_cons]
      exact ht.push hp ⟨column, hc⟩ hroom
  | ask => exact ht
  | @call frame frames resolver _ hp h =>
      exact h.stack_eq ▸ ht.of_isPrefix (stack_isPrefix_cons resolver frame frames)
  | take => exact ht
  | @leave cause frame frames resolver =>
      exact ht.of_isPrefix (stack_isPrefix_cons resolver frame frames)

theorem Handed.nested {path : List String} {name : String} {frames : List Frame}
    {resolver : Resolver} (h : Handed path name frames resolver machine)
    (hf : ∀ frame ∈ frames, ∀ source ∈ frame.pending,
      view.DirectSource frame.column.name source) : view.Nested machine := by
  cases h with
  | ok => exact ⟨nofun, hf⟩
  | error => exact ⟨nofun, hf⟩
  | fault => exact ⟨nofun, nofun⟩

/-- **What is resolved next** is a source of the innermost frame, step after step. -/
theorem Moves.nested (hd : view.Declares columns) (h : view.Moves machine after)
    (ht : view.Nested machine) : view.Nested after := by
  obtain ⟨-, hleft⟩ := ht
  cases h with
  | known => exact ⟨nofun, hleft⟩
  | found h => exact h.nested hleft
  | @enter name frames resolver noted column function hk hc hp hroom hf hm hs =>
      obtain rfl := (hd name column hc).1
      exact ⟨nofun, List.forall_mem_cons.mpr ⟨fun source hs => ⟨column, hc, hs⟩, hleft⟩⟩
  | @ask frame frames resolver source pending hp =>
      obtain ⟨hframe, hrest⟩ := List.forall_mem_cons.mp hleft
      rw [hp] at hframe
      obtain ⟨hsource, hpending⟩ := List.forall_mem_cons.mp hframe
      refine ⟨?_, List.forall_mem_cons.mpr ⟨hpending, hrest⟩⟩
      rintro _ ⟨⟩ _ ⟨⟩
      exact hsource
  | call hp h => exact h.nested (List.forall_mem_cons.mp hleft).2
  | take =>
      obtain ⟨hframe, hrest⟩ := List.forall_mem_cons.mp hleft
      exact ⟨nofun, List.forall_mem_cons.mpr ⟨hframe, hrest⟩⟩
  | leave => exact ⟨nofun, (List.forall_mem_cons.mp hleft).2⟩

/-- **Throughout a run** the stack is in order and the frames are nested. -/
theorem Runs.kept (hd : view.Declares columns) {steps : Nat} (h : view.Runs machine steps after)
    (ht : view.Tidy machine.stack) (hs : view.Nested machine) :
    view.Tidy after.stack ∧ view.Nested after := by
  induction h with
  | done => exact ⟨ht, hs⟩
  | step hstep _ ih =>
      have hmoves := moves_of_step hstep
      exact ih (hmoves.tidy hd ht) (hmoves.nested hd hs)

end Stack

end View

end RowSieve

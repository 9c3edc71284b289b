import RowSieve.Proofs.Column.Equality

/-!
# What a predicate reads

A predicate lists the columns that it reads, and evaluating it asks for columns on the way.  The two
go through the leaves in one order, so the list leaves out nothing that is asked for and holds
nothing that is not.

* `Predicate.columns_eq`: the list is that of the leaves' columns, without later repeats.
* `Predicate.noted_evaluate`: what is asked for are the columns of the leaves, up to where the
  evaluation ends; `Predicate.exists_watch` compares this with the list.
* `Predicate.read_set`: both, and what lookups that answer alike on the list lead to.
-/

namespace RowSieve.Predicate

/-- The columns of the leaves, from left to right. -/
def leafColumns (predicate : Predicate) : List String :=
  predicate.leaves.map (·.1)

@[simp] theorem leafColumns_leaf (name : String) (test : Test) :
    (leaf name test).leafColumns = [name] := rfl

@[simp] theorem leafColumns_and (left right : Predicate) :
    (and left right).leafColumns = left.leafColumns ++ right.leafColumns :=
  List.map_append

@[simp] theorem leafColumns_or (left right : Predicate) :
    (or left right).leafColumns = left.leafColumns ++ right.leafColumns :=
  List.map_append

@[simp] theorem leafColumns_not (inner : Predicate) : (not inner).leafColumns = inner.leafColumns :=
  rfl

/-! ### The list -/

/-- What was listed without repeats goes on without repeats. -/
theorem columnsAfter_eraseDups (predicate : Predicate) (listed : List String) :
    predicate.columnsAfter listed.eraseDups = (listed ++ predicate.leafColumns).eraseDups := by
  induction predicate generalizing listed with
  | leaf name test =>
      rw [columnsAfter, leafColumns_leaf, List.eraseDups_append, List.cons_removeAll]
      by_cases hn : name ∈ listed
      · simp [hn, List.mem_eraseDups]
      · simp [hn, List.mem_eraseDups, List.eraseDups_cons]
  | and left right ihl ihr | or left right ihl ihr =>
      simp only [columnsAfter, ihl, ihr, leafColumns_and, leafColumns_or, List.append_assoc]
  | not inner ih => exact ih listed

/-- **The columns listed** are those of the leaves, each where it occurs first. -/
theorem columns_eq (predicate : Predicate) :
    predicate.columns = predicate.leafColumns.eraseDups :=
  predicate.columnsAfter_eraseDups []

/-! ### What is asked for -/

section Noting

variable {ε σ α β : Type}

/-- A computation that asks for no column. -/
def quiet (action : EStateM ε σ α) : EStateM ε (σ × List String) α := fun (state, asked) =>
  match action state with
  | .ok value next => .ok value (next, asked)
  | .error cause next => .error cause (next, asked)

/-- A lookup that notes the columns it is asked for. -/
def noting (lookup : String → EStateM ε σ α) (name : String) : EStateM ε (σ × List String) α :=
  fun (state, asked) => quiet (lookup name) (state, asked ++ [name])

/-- **What is asked for** are these columns, up to where the computation ends.  Whoever takes notes
changes nothing else. -/
inductive Noted (names asked : List String) :
    EStateM.Result ε σ α → EStateM.Result ε (σ × List String) α → Prop where
  | ok (value : α) (next : σ) :
      Noted names asked (.ok value next) (.ok value (next, asked ++ names))
  | error (cause : ε) (next : σ) {before : List String} (h : before <+: names) :
      Noted names asked (.error cause next) (.error cause (next, asked ++ before))

theorem noted_quiet (action : EStateM ε σ α) (state : σ) (asked : List String) :
    Noted [] asked (action state) (quiet action (state, asked)) := by
  rw [quiet]
  cases action state with
  | ok value next =>
      have h : Noted [] asked (.ok value next : EStateM.Result ε σ α)
        (.ok value (next, asked ++ [])) := .ok value next
      rwa [List.append_nil] at h
  | error cause next =>
      have h : Noted [] asked (.error cause next : EStateM.Result ε σ α)
        (.error cause (next, asked ++ [])) := .error cause next List.prefix_rfl
      rwa [List.append_nil] at h

theorem noted_noting (lookup : String → EStateM ε σ α) (name : String) (state : σ)
    (asked : List String) :
    Noted [name] asked (lookup name state) (noting lookup name (state, asked)) := by
  rw [noting, quiet]
  cases lookup name state with
  | ok value next => exact .ok value next
  | error cause next => exact .error cause next List.prefix_rfl

/-- What comes after is noted after. -/
theorem Noted.bind {action : EStateM ε σ α} {noted : EStateM ε (σ × List String) α}
    {next : α → EStateM ε σ β} {after : α → EStateM ε (σ × List String) β}
    {names others : List String} {state : σ} {asked : List String}
    (h : Noted names asked (action state) (noted (state, asked)))
    (hn : ∀ value middle asked,
      Noted others asked (next value middle) (after value (middle, asked))) :
    Noted (names ++ others) asked ((action >>= next) state) ((noted >>= after) (state, asked)) := by
  generalize ha : action state = result, hr : noted (state, asked) = watched at h
  cases h with
  | ok value middle =>
      rw [bind_run ha, bind_run hr]
      have hafter := hn value middle (asked ++ names)
      generalize next value middle = result, after value (middle, asked ++ names) = watched
        at hafter ⊢
      cases hafter with
      | ok final last =>
          rw [List.append_assoc]
          exact .ok final last
      | error cause last hb =>
          rw [List.append_assoc]
          exact .error cause last ((List.prefix_append_right_inj names).mpr hb)
  | error cause middle hb =>
      rw [bind_run_error ha, bind_run_error hr]
      exact .error cause middle (hb.trans (List.prefix_append names others))

/-- Nothing is noted of what asks for no column. -/
theorem Noted.bind_quiet {action : EStateM ε σ α} {noted : EStateM ε (σ × List String) α}
    {names : List String} {state : σ} {asked : List String}
    (h : Noted names asked (action state) (noted (state, asked))) (next : α → EStateM ε σ β) :
    Noted names asked ((action >>= next) state)
      ((noted >>= fun value => quiet (next value)) (state, asked)) := by
  rw [← List.append_nil names]
  exact h.bind fun value middle asked => noted_quiet (next value) middle asked

/-- **What a predicate asks for** are the columns of its leaves. -/
theorem noted_evaluate (lookup : String → EStateM ε σ Column)
    (settle : Outcome DataError Bits → EStateM ε σ Bits) (predicate : Predicate) (state : σ)
    (asked : List String) :
    Noted predicate.leafColumns asked (predicate.evaluate lookup settle state)
      (predicate.evaluate (noting lookup) (fun outcome => quiet (settle outcome))
        (state, asked)) := by
  induction predicate generalizing state asked with
  | leaf name test =>
      exact (noted_noting lookup name state asked).bind_quiet fun found =>
        settle (test.bits name found)
  | and left right ihl ihr =>
      rw [leafColumns_and]
      exact (ihl state asked).bind fun leftBits middle asked =>
        (ihr middle asked).bind_quiet fun rightBits =>
          settle (Outcome.ofFaulty (leftBits.and rightBits))
  | or left right ihl ihr =>
      rw [leafColumns_or]
      exact (ihl state asked).bind fun leftBits middle asked =>
        (ihr middle asked).bind_quiet fun rightBits =>
          settle (Outcome.ofFaulty (leftBits.or rightBits))
  | not inner ih => exact (ih state asked).bind_quiet fun bits => pure bits.not

/-- An evaluation that notes the columns it asks for. -/
def watch (predicate : Predicate) (lookup : String → EStateM ε σ Column)
    (settle : Outcome DataError Bits → EStateM ε σ Bits) : EStateM ε (σ × List String) Bits :=
  predicate.evaluate (noting lookup) fun outcome => quiet (settle outcome)

/-- **Whoever takes notes** sees the evaluation end as it does otherwise, and notes columns of the
list alone, all of them if it ends with bits. -/
theorem exists_watch (lookup : String → EStateM ε σ Column)
    (settle : Outcome DataError Bits → EStateM ε σ Bits) (predicate : Predicate) (state : σ) :
    ∃ asked, asked <+: predicate.leafColumns ∧ (∀ name ∈ asked, name ∈ predicate.columns) ∧
      ((∃ bits next, predicate.evaluate lookup settle state = .ok bits next ∧
          predicate.watch lookup settle (state, []) = .ok bits (next, asked) ∧
            ∀ name ∈ predicate.columns, name ∈ asked) ∨
        ∃ cause next, predicate.evaluate lookup settle state = .error cause next ∧
          predicate.watch lookup settle (state, []) = .error cause (next, asked)) := by
  have hmem : ∀ name, name ∈ predicate.columns ↔ name ∈ predicate.leafColumns :=
    fun _ => mem_columns
  have hnoted := noted_evaluate lookup settle predicate state []
  rw [← watch] at hnoted
  generalize predicate.evaluate lookup settle state = result,
    predicate.watch lookup settle (state, []) = watched at hnoted ⊢
  cases hnoted with
  | ok bits next =>
      exact ⟨predicate.leafColumns, List.prefix_rfl, fun name => (hmem name).mpr,
        .inl ⟨bits, next, rfl, rfl, fun name => (hmem name).mp⟩⟩
  | @error cause next before hb =>
      exact ⟨before, hb, fun name hn => (hmem name).mpr (hb.subset hn),
        .inr ⟨cause, next, rfl, rfl⟩⟩

/-- A computation that looks at no state. -/
def steady : Except ε α → EStateM ε σ α
  | .ok value => pure value
  | .error cause => throw cause

theorem steady_bind (x : Except ε α) (f : α → Except ε β) :
    (steady (x >>= f) : EStateM ε σ β) = steady x >>= fun value => steady (f value) := by
  cases x with
  | ok value => rfl
  | error cause => rfl

/-- Lookups that look at no state are lookups. -/
theorem evaluate_steady (lookup : String → Except ε Column)
    (settle : Outcome DataError Bits → Except ε Bits) (predicate : Predicate) :
    (predicate.evaluate (fun name => steady (lookup name)) fun outcome => steady (settle outcome) :
      EStateM ε σ Bits) = steady (predicate.evaluate lookup settle) := by
  induction predicate with
  | leaf name test => rw [evaluate, evaluate, steady_bind]
  | and left right ihl ihr | or left right ihl ihr =>
      simp only [evaluate, steady_bind, ihl, ihr]
  | not inner ih =>
      rw [evaluate, evaluate, steady_bind, ih]
      rfl

end Noting

/-- **The read set.**  The columns listed are those of the leaves from left to right, without later
repeats.  Whatever the lookup, evaluating the predicate asks it for columns of the list alone, in
the order of the leaves, and for all of them when it ends with bits.  Lookups that answer alike on
the list lead to the same bits or the same error, and so do lookups whose answers are equal
columns. -/
theorem read_set (predicate : Predicate) :
    predicate.columns = predicate.leafColumns.eraseDups ∧
    (∀ {ε σ : Type} (lookup : String → EStateM ε σ Column)
      (settle : Outcome DataError Bits → EStateM ε σ Bits) (state : σ),
      ∃ asked, asked <+: predicate.leafColumns ∧ (∀ name ∈ asked, name ∈ predicate.columns) ∧
        ((∃ bits next, predicate.evaluate lookup settle state = .ok bits next ∧
            predicate.watch lookup settle (state, []) = .ok bits (next, asked) ∧
              ∀ name ∈ predicate.columns, name ∈ asked) ∨
          ∃ cause next, predicate.evaluate lookup settle state = .error cause next ∧
            predicate.watch lookup settle (state, []) = .error cause (next, asked))) ∧
    (∀ {ε σ : Type} (lookup : String → Except ε Column)
      (settle : Outcome DataError Bits → Except ε Bits),
      (predicate.evaluate (fun name => steady (lookup name))
        (fun outcome => steady (settle outcome)) : EStateM ε σ Bits) =
          steady (predicate.evaluate lookup settle)) ∧
    (∀ {m : Type → Type} [Monad m] (lookup others : String → m Column)
      (settle : Outcome DataError Bits → m Bits),
      (∀ name ∈ predicate.columns, lookup name = others name) →
        predicate.evaluate lookup settle = predicate.evaluate others settle) ∧
    ∀ {ε : Type} (lookup others : String → Outcome ε Column)
      (settle : Outcome DataError Bits → Outcome ε Bits),
      (∀ name ∈ predicate.columns, Outcome.Related Column.Equal (lookup name) (others name)) →
        predicate.evaluate lookup settle = predicate.evaluate others settle :=
  ⟨predicate.columns_eq, fun lookup settle => exists_watch lookup settle predicate,
    fun lookup settle => evaluate_steady lookup settle predicate,
    fun _ _ _ => evaluate_congr, fun _ _ settle => evaluate_of_equal settle⟩

/-- The flag is there and set. -/
def flagSet : Predicate :=
  and (.leaf "flag" .isNotNull) (.leaf "flag" .isTrue)

/-- Two flags, and another column beside them. -/
def flags (other : Column) : Table :=
  ⟨[("flag", .ofBooleans #[true, false]), ("other", other)]⟩

/-- The flag is read twice and listed once; whether numbers or texts stand beside it does not
matter. -/
theorem read_set_flags :
    flagSet.columns = ["flag"] ∧
      flagSet.evaluate
          (fun name => Outcome.ofExcept ((flags (.ofInts #[1, 2])).column name)) id =
        flagSet.evaluate
          (fun name => Outcome.ofExcept ((flags (.ofStrings #["a", "b"])).column name)) id := by
  have hcolumns : flagSet.columns = ["flag"] := by decide
  obtain ⟨-, -, -, halike, -⟩ := read_set flagSet
  refine ⟨hcolumns, halike _ _ _ fun name hn => ?_⟩
  rw [hcolumns, List.mem_singleton] at hn
  subst hn
  rfl

end RowSieve.Predicate

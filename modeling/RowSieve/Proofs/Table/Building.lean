import RowSieve.Proofs.Table
import RowSieve.Table.Builder

/-!
# Building tables in place

What a builder keeps of its columns in four parts is what can be told of a table (`Builder.Holds`).
Adding a column to the builder ends as adding it to the table does: it changes all parts together,
or none of them.  So the parts stay in step over any calls, whichever of them fail, and the builder
holds the columns of those that succeed.

* `Builder.Holds.add`: one call.
* `Builder.Holds.addEach`, `Builder.Holds.addAll`: calls one after another, past failures and up to
  the first; `Builder.Holds.call`: one call among them.
* `Builder.InStep`: the four parts tell of the same columns.
* `Builder.building`: all this for any calls to a builder without columns.
-/

namespace RowSieve

/-! ### Positions in a table -/

namespace Table

variable {table : Table} {name other : String} {column : Column}

theorem indexOf?_append :
    indexOf? ⟨table.columns ++ [(name, column)]⟩ other =
      (table.indexOf? other).or (if name == other then some table.columns.length else none) := by
  rw [indexOf?, indexOf?, names, List.map_append, List.idxOf?, List.findIdx?_append, List.length_map]
  cases hn : name == other <;> simp [names, List.findIdx?_cons, hn]

/-- Under distinct names, a name has the position at which it stands. -/
theorem indexOf?_eq_some_iff (h : table.names.Nodup) {position : Nat} :
    table.indexOf? name = some position ↔ table.names[position]? = some name := by
  rw [indexOf?, List.idxOf?_eq_some_iff, List.getElem?_eq_some_iff]
  refine exists_congr fun hp => and_iff_left_of_imp fun hname earlier he hsame => ?_
  have hpositions : earlier = position := h.getElem_inj_iff.mp (hsame.trans hname.symm)
  exact absurd hpositions (Nat.ne_of_lt he)

/-- The column of a name is the one at its position. -/
theorem get?_eq_bind (table : Table) (name : String) :
    table.get? name = (table.indexOf? name).bind ((table.columns.map (·.2))[·]?) := by
  obtain ⟨columns⟩ := table
  rw [get?, indexOf?, names]
  induction columns with
  | nil => rfl
  | cons entry rest ih =>
      rw [List.lookup_cons, List.map_cons, List.map_cons, List.idxOf?_cons, ih, Bool.beq_comm]
      cases entry.1 == name with
      | true => rfl
      | false =>
          cases (rest.map (·.1)).idxOf? name <;> rfl

end Table

namespace Builder

/-! ### What a builder holds -/

/-- **A builder holds a table**: each of its four parts is what can be told of the table. -/
structure Holds (builder : Builder) (table : Table) : Prop where
  schema : builder.schema.toList = table.schema
  columns : builder.columns.toList = table.columns.map (·.2)
  index : ∀ name, builder.indexOf? name = table.indexOf? name
  rows : builder.rows = table.rowCount
  distinct : table.names.Nodup
  lengths : ∀ entry ∈ table.columns, entry.2.length = table.rowCount

theorem holds_empty : empty.Holds .empty where
  schema := rfl
  columns := rfl
  index := fun name => by simp [indexOf?, empty, Table.indexOf?, Table.empty, Table.names]
  rows := rfl
  distinct := List.nodup_nil
  lengths := by simp [Table.empty]

/-- A builder to which a column has been added. -/
def extended (builder : Builder) (name : String) (column : Column) : Builder where
  schema := builder.schema.push (name, column.kind)
  columns := builder.columns.push column
  index := builder.index.insert name builder.columns.size
  rows := column.length

section Holds

variable {builder : Builder} {table : Table} {name : String} {column : Column}

theorem Holds.names (h : builder.Holds table) : builder.names = table.names := by
  rw [Builder.names, h.schema, Table.schema, List.map_map]
  rfl

theorem Holds.finish (h : builder.Holds table) : builder.finish = table := by
  rw [Builder.finish, h.names, h.columns, Table.names, List.zip_map']
  simp

theorem Holds.get? (h : builder.Holds table) (name : String) :
    builder.get? name = table.get? name := by
  rw [Builder.get?, h.index, Table.get?_eq_bind, ← h.columns]
  simp

theorem Holds.contains (h : builder.Holds table) (name : String) :
    builder.index.contains name = table.contains name := by
  rw [Std.HashMap.contains_eq_isSome_getElem?, Bool.eq_iff_iff, Table.contains_iff]
  show (builder.indexOf? name).isSome = true ↔ _
  rw [h.index, Option.isSome_iff_ne_none, Table.indexOf?, ne_eq, List.idxOf?_eq_none_iff, not_not]

theorem Holds.isEmpty (h : builder.Holds table) :
    builder.columns.isEmpty = table.columns.isEmpty := by
  rw [← Array.isEmpty_toList, h.columns, List.isEmpty_map]

/-- **The four parts change together.** -/
theorem Holds.extended (h : builder.Holds table) (hn : name ∉ table.names)
    (hl : table.columns ≠ [] → column.length = table.rowCount) :
    (builder.extended name column).Holds ⟨table.columns ++ [(name, column)]⟩ where
  schema := by
    rw [Builder.extended, Array.toList_push, h.schema, Table.schema, Table.schema, List.map_append]
    rfl
  columns := by
    rw [Builder.extended, Array.toList_push, h.columns, List.map_append]
    rfl
  index := fun other => by
    have hsize : builder.columns.size = table.columns.length := by
      rw [← Array.length_toList, h.columns, List.length_map]
    rw [Table.indexOf?_append, ← h.index, indexOf?, Builder.extended, Std.HashMap.getElem?_insert,
      hsize, ← indexOf?]
    by_cases hother : name = other
    · -- the name is new, so it had no position
      have hnone : builder.indexOf? other = none := by
        rw [h.index, Table.indexOf?, List.idxOf?_eq_none_iff, ← hother]
        exact hn
      simp [hother, hnone]
    · simp [hother]
  rows := (Table.rowCount_append hl).symm
  distinct := Table.nodup_names_append h.distinct hn
  lengths := Table.length_eq_rowCount_append h.lengths hl

end Holds

end Builder

namespace Building

section Runs

variable {builder : Builder} {table : Table} {name : String} {column : Column}

/-! ### One call -/

theorem require_run {condition : Builder → Bool} (h : condition builder = true)
    (error : Builder → DataError) : require condition error builder = .ok () builder := by
  rw [require, bind_run (show (get : Building Builder) builder = .ok builder builder from rfl),
    if_pos h]
  rfl

theorem require_run_error {condition : Builder → Bool} (h : condition builder = false)
    (error : Builder → DataError) :
    require condition error builder = .error (error builder) builder := by
  rw [require, bind_run (show (get : Building Builder) builder = .ok builder builder from rfl), h]
  rfl

/-- Adding a column goes through two checks before the builder changes. -/
theorem add_run (builder : Builder) (name : String) (column : Column) :
    add name column builder =
      if builder.index.contains name then .error (.duplicateColumn name) builder
      else if !builder.columns.isEmpty && column.length ≠ builder.rows then
        .error (.lengthMismatch s!"column {name}" builder.rows column.length) builder
      else .ok () (builder.extended name column) := by
  rw [add]
  cases hn : builder.index.contains name with
  | true => exact bind_run_error (require_run_error (by rw [hn]; rfl) _)
  | false =>
      rw [bind_run (require_run (by rw [hn]; rfl) _)]
      by_cases hl : builder.columns.isEmpty = true ∨ column.length = builder.rows
      · rw [bind_run (require_run (by simpa using hl) _), if_neg Bool.false_ne_true, if_neg]
        · rfl
        · simpa [or_iff_not_imp_left] using hl
      · rw [if_neg Bool.false_ne_true, if_pos (by simpa using hl)]
        exact bind_run_error (require_run_error (by simpa using hl) _)

/-! ### Calls one after another -/

theorem attempt_eq_ok {step : Building Unit} {ended : Except DataError Unit} {after : Builder} :
    attempt step builder = .ok ended after ↔
      step builder = .ok () after ∧ ended = .ok () ∨
        ∃ cause, step builder = .error cause after ∧ ended = .error cause := by
  rw [attempt]
  cases step builder with
  | ok value next => simp [eq_comm, and_comm]
  | error cause next => simp [eq_comm, and_comm]

theorem addEach_cons_eq_ok {call : String × Column} {rest : List (String × Column)}
    {ends : List (Except DataError Unit)} {after : Builder} :
    addEach (call :: rest) builder = .ok ends after ↔
      ∃ ended next later, attempt (add call.1 call.2) builder = .ok ended next ∧
        addEach rest next = .ok later after ∧ ends = ended :: later := by
  rw [addEach, List.mapM_cons]
  simp only [bind_run_eq_ok]
  constructor
  · rintro ⟨ended, next, hcall, later, last, hrest, hend⟩
    cases hend
    exact ⟨ended, next, later, hcall, hrest, rfl⟩
  · rintro ⟨ended, next, later, hcall, hrest, rfl⟩
    exact ⟨ended, next, hcall, later, after, hrest, rfl⟩

theorem addEach_append {first rest : List (String × Column)}
    {earlier later : List (Except DataError Unit)} {reached after : Builder}
    (hf : addEach first builder = .ok earlier reached)
    (hr : addEach rest reached = .ok later after) :
    addEach (first ++ rest) builder = .ok (earlier ++ later) after := by
  rw [addEach, List.mapM_append]
  exact (bind_run hf).trans (bind_run hr)

/-- The calls that succeed. -/
def succeeded : List (String × Column) → List (Except DataError Unit) → List (String × Column)
  | call :: calls, .ok _ :: ends => call :: succeeded calls ends
  | _ :: calls, .error _ :: ends => succeeded calls ends
  | _, _ => []

theorem succeeded_cons (call : String × Column) (calls : List (String × Column))
    (ended : Except DataError Unit) (ends : List (Except DataError Unit)) :
    succeeded (call :: calls) (ended :: ends) = succeeded [call] [ended] ++ succeeded calls ends := by
  cases ended <;> rfl

/-- What was wrong with a call. -/
def failure? : Except DataError Unit → Option DataError
  | .ok _ => none
  | .error cause => some cause

/-- Up to the first failure the calls are the same. -/
theorem addAll_of_addEach {calls : List (String × Column)} {ends : List (Except DataError Unit)}
    {after : Builder} (h : addEach calls builder = .ok ends after) :
    ends.findSome? failure? = none ∧ addAll calls builder = .ok () after ∨
      ∃ cause stopped, ends.findSome? failure? = some cause ∧
        addAll calls builder = .error cause stopped := by
  induction calls generalizing builder ends with
  | nil =>
      cases h
      exact .inl ⟨rfl, rfl⟩
  | cons call rest ih =>
      obtain ⟨ended, next, later, hcall, hrest, rfl⟩ := addEach_cons_eq_ok.mp h
      rw [addAll, List.forM_cons]
      rcases attempt_eq_ok.mp hcall with ⟨hadd, rfl⟩ | ⟨cause, hadd, rfl⟩
      · have hlater := ih hrest
        rw [bind_run hadd]
        exact hlater
      · exact .inr ⟨cause, next, rfl, bind_run_error hadd⟩

end Runs

end Building

namespace Builder

open Building (succeeded succeeded_cons failure?)

section Calls

variable {builder : Builder} {table : Table} {name : String} {column : Column}

/-- **A column is admitted** under a new name, and with as many rows as those before it. -/
def Admits (builder : Builder) (name : String) (column : Column) : Prop :=
  name ∉ builder.names ∧ (builder.columns = #[] ∨ column.length = builder.rows)

theorem Holds.admits_iff (h : builder.Holds table) :
    builder.Admits name column ↔
      name ∉ table.names ∧ (table.columns ≠ [] → column.length = table.rowCount) := by
  rw [Admits, h.names, h.rows, ← Array.isEmpty_iff, h.isEmpty, List.isEmpty_iff,
    ← or_iff_not_imp_left]

/-- **Adding a column to a builder** ends as adding it to the table that the builder holds: it is
added if it is admitted, and otherwise the builder is left as it was. -/
theorem Holds.add (h : builder.Holds table) (name : String) (column : Column) :
    (builder.Admits name column ∧
        table.addColumn name column = .ok ⟨table.columns ++ [(name, column)]⟩ ∧
        ∃ after, Building.add name column builder = .ok () after ∧
          after.Holds ⟨table.columns ++ [(name, column)]⟩) ∨
      ¬ builder.Admits name column ∧ ∃ cause, table.addColumn name column = .error cause ∧
        Building.add name column builder = .error cause builder := by
  rw [Building.add_run, h.contains, h.isEmpty, h.rows, h.admits_iff]
  cases hadd : table.addColumn name column with
  | ok result =>
      obtain ⟨hn, hl, rfl⟩ := Table.addColumn_eq_ok hadd
      refine .inl ⟨⟨hn, hl⟩, rfl, builder.extended name column, ?_, h.extended hn hl⟩
      rw [if_neg (by rwa [Table.contains_iff]), if_neg]
      simpa [or_iff_not_imp_left] using hl
  | error cause =>
      refine .inr ⟨fun hadmits => ?_, cause, rfl, ?_⟩
      · cases hadd.symm.trans (Table.addColumn_of_fresh hadmits.1 hadmits.2)
      · rw [Table.addColumn] at hadd
        split at hadd
        next hn => rw [if_pos hn, Except.error.inj hadd]
        next hn =>
          split at hadd
          next hl => rw [if_neg hn, if_pos hl, Except.error.inj hadd]
          next => cases hadd

/-- Whether or not a call succeeds, the builder goes on holding what has succeeded. -/
theorem Holds.attempt (h : builder.Holds table) (name : String) (column : Column) :
    ∃ ended next, Building.attempt (Building.add name column) builder = .ok ended next ∧
      next.Holds ⟨table.columns ++ succeeded [(name, column)] [ended]⟩ ∧
      (ended = .ok () ↔ builder.Admits name column) ∧
      ∀ cause, ended = .error cause → Building.add name column builder = .error cause builder := by
  rcases h.add name column with ⟨hadmits, -, next, hadd, hnext⟩ | ⟨hnot, cause, -, hadd⟩
  · exact ⟨.ok (), next, Building.attempt_eq_ok.mpr (.inl ⟨hadd, rfl⟩), hnext,
      iff_of_true rfl hadmits, nofun⟩
  · refine ⟨.error cause, builder, Building.attempt_eq_ok.mpr (.inr ⟨cause, hadd, rfl⟩), ?_,
      iff_of_false nofun hnot, fun other ho => ?_⟩
    · simpa [succeeded] using h
    · cases ho
      exact hadd

/-- **Calls one after another**: the builder holds the columns of those that succeed. -/
theorem Holds.addEach (h : builder.Holds table) (calls : List (String × Column)) :
    ∃ ends after, Building.addEach calls builder = .ok ends after ∧ ends.length = calls.length ∧
      after.Holds ⟨table.columns ++ succeeded calls ends⟩ := by
  induction calls generalizing builder table with
  | nil => exact ⟨[], builder, rfl, rfl, by simpa [succeeded] using h⟩
  | cons call rest ih =>
      obtain ⟨ended, next, hcall, hnext, -⟩ := h.attempt call.1 call.2
      obtain ⟨later, after, hrest, hlength, hafter⟩ := ih hnext
      refine ⟨_, after, Building.addEach_cons_eq_ok.mpr ⟨ended, next, later, hcall, hrest, rfl⟩,
        congrArg (· + 1) hlength, ?_⟩
      rwa [succeeded_cons, ← List.append_assoc]

/-- **A call among others** meets the builder that the calls before it leave, and changes it only
if its column is admitted. -/
theorem Holds.call (h : builder.Holds table) {before rest : List (String × Column)}
    {ends : List (Except DataError Unit)} {after : Builder}
    (hc : Building.addEach (before ++ (name, column) :: rest) builder = .ok ends after) :
    ∃ earlier ended later reached, ends = earlier ++ ended :: later ∧
      Building.addEach before builder = .ok earlier reached ∧
      (ended = .ok () ↔ reached.Admits name column) ∧
      ∀ cause, ended = .error cause → Building.add name column reached = .error cause reached := by
  obtain ⟨earlier, reached, hbefore, -, hreached⟩ := h.addEach before
  obtain ⟨ended, next, hcall, hnext, hends⟩ := hreached.attempt name column
  obtain ⟨later, last, hrest, -, -⟩ := hnext.addEach rest
  have hthen : Building.addEach ((name, column) :: rest) reached = .ok (ended :: later) last :=
    Building.addEach_cons_eq_ok.mpr ⟨ended, next, later, hcall, hrest, rfl⟩
  cases hc.symm.trans (Building.addEach_append hbefore hthen)
  exact ⟨earlier, ended, later, reached, rfl, hbefore, hends⟩

/-- **Calls up to the first failure** end as those on the table. -/
theorem Holds.addAll (h : builder.Holds table) (calls : List (String × Column)) :
    (∃ result after, calls.foldlM (fun table call => table.addColumn call.1 call.2) table =
        .ok result ∧ Building.addAll calls builder = .ok () after ∧ after.Holds result) ∨
      ∃ cause stopped, calls.foldlM (fun table call => table.addColumn call.1 call.2) table =
        .error cause ∧ Building.addAll calls builder = .error cause stopped := by
  induction calls generalizing builder table with
  | nil => exact .inl ⟨table, builder, rfl, rfl, h⟩
  | cons call rest ih =>
      rw [List.foldlM_cons, Building.addAll, List.forM_cons]
      rcases h.add call.1 call.2 with ⟨-, htable, next, hadd, hnext⟩ | ⟨-, cause, htable, hadd⟩
      · rw [htable, bind_run hadd]
        exact ih hnext
      · rw [htable]
        exact .inr ⟨cause, builder, rfl, bind_run_error hadd⟩

end Calls

/-! ### In step -/

/-- **The four parts tell of the same columns**: names differ, each name has the position at which
it stands, each type is that of the column there, and all columns have as many rows. -/
structure InStep (builder : Builder) : Prop where
  distinct : builder.names.Nodup
  positions : ∀ name position,
    builder.indexOf? name = some position ↔ builder.names[position]? = some name
  types : ∀ position : Nat,
    builder.schema[position]?.map (·.2) = builder.columns[position]?.map Column.kind
  lengths : ∀ column ∈ builder.columns, column.length = builder.rows

theorem Holds.inStep {builder : Builder} {table : Table} (h : builder.Holds table) :
    builder.InStep where
  distinct := h.names ▸ h.distinct
  positions := fun name position => by
    rw [h.index, h.names, Table.indexOf?_eq_some_iff h.distinct]
  types := fun position => by
    rw [← Array.getElem?_toList, ← Array.getElem?_toList, h.schema, h.columns, Table.schema,
      List.getElem?_map, List.getElem?_map, Option.map_map, Option.map_map]
    rfl
  lengths := fun column hc => by
    have hm : column ∈ table.columns.map (·.2) := by
      rw [← h.columns]
      exact hc.val
    obtain ⟨entry, he, rfl⟩ := List.mem_map.mp hm
    rw [h.rows, h.lengths entry he]

/-- **Building a table.**  After any calls to a builder without columns, whichever of them fail, it
holds the columns of those that succeeded, in the order of the calls; its four parts are in step, and
under a name is the column of the first call with this name that succeeded.  A call succeeds exactly
if its column is admitted by the builder that the calls before it left, and otherwise leaves this
builder as it was.  Without going on past failures the calls give the same builder if none fails, and
otherwise end in the first failure; so do the calls on a table. -/
theorem building (calls : List (String × Column)) :
    ∃ ends builder, Building.addEach calls .empty = .ok ends builder ∧
      ends.length = calls.length ∧
      builder.Holds ⟨succeeded calls ends⟩ ∧ builder.InStep ∧
      (∀ name, builder.get? name = (succeeded calls ends).lookup name) ∧
      (∀ before name column rest, calls = before ++ (name, column) :: rest →
        ∃ earlier ended later reached, ends = earlier ++ ended :: later ∧
          Building.addEach before .empty = .ok earlier reached ∧
          (ended = .ok () ↔ reached.Admits name column) ∧
          ∀ cause, ended = .error cause →
            Building.add name column reached = .error cause reached) ∧
      ofColumns calls = (ends.findSome? failure?).elim (.ok builder) .error ∧
      Table.ofColumns calls = (ofColumns calls).map finish := by
  obtain ⟨ends, builder, hcalls, hlength, hbuilder⟩ := holds_empty.addEach calls
  refine ⟨ends, builder, hcalls, hlength, hbuilder, hbuilder.inStep, hbuilder.get?, ?_, ?_, ?_⟩
  · rintro before name column rest rfl
    exact holds_empty.call hcalls
  · rw [ofColumns]
    rcases Building.addAll_of_addEach hcalls with ⟨hnone, hall⟩ | ⟨cause, stopped, hsome, hall⟩
    · rw [hall, hnone]
      rfl
    · rw [hall, hsome]
      rfl
  · rw [ofColumns, Table.ofColumns]
    rcases holds_empty.addAll calls with ⟨result, after, htable, hall, hafter⟩ |
      ⟨cause, stopped, htable, hall⟩
    · rw [hall]
      exact htable.trans (congrArg Except.ok hafter.finish.symm)
    · rw [hall]
      exact htable

end Builder

end RowSieve

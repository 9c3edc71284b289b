import Mathlib.Data.List.Nodup
import RowSieve.Proofs.Column
import RowSieve.Table

/-!
# Tables

`Table.WellFormed` is what adding a column keeps: well-formed columns, all equally long, under
distinct names.  It says exactly that a table can be built column by column (`Table.built_iff`), and
such a table is rebuilt from its columns (`Table.WellFormed.ofColumns_eq`).

`Table.take` gathers the same rows of every column; on rows that exist it succeeds (`Table.take_eq`)
and gives a well-formed table of as many rows (`Table.WellFormed.taken`).
-/

namespace RowSieve.Table

/-! ### The invariant -/

/-- What adding columns keeps. -/
structure WellFormed (table : Table) : Prop where
  columns : ∀ entry ∈ table.columns, entry.2.WellFormed
  lengths : ∀ entry ∈ table.columns, entry.2.length = table.rowCount
  names : table.names.Nodup

/-- The tables that are built by adding columns. -/
inductive Built : Table → Prop where
  | empty : Built empty
  | addColumn {table result : Table} {name : String} {column : Column} (ht : Built table)
      (hc : column.Built) (h : table.addColumn name column = .ok result) : Built result

theorem get?_eq_none_iff {table : Table} {name : String} :
    table.get? name = none ↔ name ∉ table.names := by
  simp only [get?, names, List.lookup_eq_none_iff, List.mem_map, not_exists, not_and]
  constructor
  · rintro h entry he rfl
    simpa using h entry he
  · intro h entry he
    simpa using fun hn => h entry he hn.symm

theorem contains_iff {table : Table} {name : String} :
    table.contains name = true ↔ name ∈ table.names := by
  rw [contains, Option.isSome_iff_ne_none, ne_eq, get?_eq_none_iff, not_not]

theorem mem_of_get? {table : Table} {name : String} {column : Column}
    (h : table.get? name = some column) : (name, column) ∈ table.columns := by
  rw [get?, List.lookup_eq_some_iff] at h
  obtain ⟨before, after, h, -⟩ := h
  rw [h]
  simp

theorem WellFormed.get?_eq_some_iff {table : Table} (h : table.WellFormed) {name : String}
    {column : Column} : table.get? name = some column ↔ (name, column) ∈ table.columns := by
  refine ⟨mem_of_get?, fun hm => ?_⟩
  cases hg : table.get? name with
  | none => exact absurd (List.mem_map_of_mem hm) (get?_eq_none_iff.mp hg)
  | some other =>
      have := List.inj_on_of_nodup_map h.names (mem_of_get? hg) hm rfl
      rw [(Prod.mk.inj this).2]

theorem WellFormed.wellFormed_of_get? {table : Table} (h : table.WellFormed) {name : String}
    {column : Column} (hg : table.get? name = some column) :
    column.WellFormed ∧ column.length = table.rowCount :=
  ⟨h.columns _ (mem_of_get? hg), h.lengths _ (mem_of_get? hg)⟩

/-! ### Tables compared column by column -/

section Related

variable {r : Column → Column → Prop}

/-- Entries under the same names in one order are found together. -/
theorem rel_lookup {left right : List (String × Column)}
    (h : List.Forall₂ (fun entry other => entry.1 = other.1 ∧ r entry.2 other.2) left right)
    (name : String) : Option.Rel r (left.lookup name) (right.lookup name) := by
  induction h with
  | nil => exact .none
  | @cons entry other _ _ hm _ ih =>
      rw [List.lookup_cons, List.lookup_cons, hm.1]
      cases name == other.1 with
      | true => exact .some hm.2
      | false => exact ih

/-- Tables whose columns are related give related columns, or do not have them. -/
theorem related_column {left right : Table}
    (h : List.Forall₂ (fun entry other => entry.1 = other.1 ∧ r entry.2 other.2) left.columns
      right.columns) (name : String) :
    Outcome.Related r (left.column name) (right.column name) := by
  have hget := rel_lookup h name
  rw [Table.column, Table.column, get?, get?]
  generalize left.columns.lookup name = found, right.columns.lookup name = other at hget ⊢
  cases hget with
  | none => exact .error _
  | some hr => exact .ok hr

end Related

/-! ### Adding columns -/

theorem addColumn_eq_ok {table result : Table} {name : String} {column : Column}
    (h : table.addColumn name column = .ok result) :
    name ∉ table.names ∧ (table.columns ≠ [] → column.length = table.rowCount) ∧
      result = ⟨table.columns ++ [(name, column)]⟩ := by
  rw [addColumn] at h
  split at h
  · cases h
  next hn =>
    split at h
    · cases h
    next hl =>
      refine ⟨fun hm => hn (contains_iff.mpr hm), fun hne => ?_, (Except.ok.inj h).symm⟩
      by_contra hlen
      exact hl (by simp [hne, hlen])

/-- A column of the right length is added under a free name. -/
theorem addColumn_of_fresh {table : Table} {name : String} {column : Column}
    (hn : name ∉ table.names) (hl : table.columns ≠ [] → column.length = table.rowCount) :
    table.addColumn name column = .ok ⟨table.columns ++ [(name, column)]⟩ := by
  rw [addColumn, if_neg (by rwa [contains_iff]), if_neg]
  by_cases hne : table.columns = []
  · simp [hne]
  · simp [hl hne]

theorem addColumn_eq_error {table : Table} {name : String} {column : Column} {error : DataError}
    (h : table.addColumn name column = .error error) :
    error = .duplicateColumn name ∨
      ∃ context expected actual, error = .lengthMismatch context expected actual := by
  rw [addColumn] at h
  split at h
  · exact .inl (Except.error.inj h).symm
  · split at h
    · exact .inr ⟨_, _, _, (Except.error.inj h).symm⟩
    · cases h

theorem rowCount_append {table : Table} {name : String} {column : Column}
    (h : table.columns ≠ [] → column.length = table.rowCount) :
    rowCount ⟨table.columns ++ [(name, column)]⟩ = column.length := by
  obtain ⟨columns⟩ := table
  cases columns with
  | nil => rfl
  | cons first rest => exact (h (List.cons_ne_nil _ _)).symm

theorem nodup_names_append {table : Table} {name : String} {column : Column}
    (h : table.names.Nodup) (hn : name ∉ table.names) :
    (names ⟨table.columns ++ [(name, column)]⟩).Nodup := by
  rw [Table.names, List.map_append]
  exact List.Nodup.append h (List.nodup_singleton _) (List.disjoint_singleton.mpr hn)

theorem length_eq_rowCount_append {table : Table} {name : String} {column : Column}
    (h : ∀ entry ∈ table.columns, entry.2.length = table.rowCount)
    (hl : table.columns ≠ [] → column.length = table.rowCount) :
    ∀ entry ∈ table.columns ++ [(name, column)],
      entry.2.length = rowCount ⟨table.columns ++ [(name, column)]⟩ := by
  intro entry he
  rw [rowCount_append hl]
  rcases List.mem_append.mp he with he | he
  · rw [h entry he, hl (List.ne_nil_of_mem he)]
  · rw [List.mem_singleton.mp he]

theorem WellFormed.addColumn {table result : Table} {name : String} {column : Column}
    (ht : table.WellFormed) (hc : column.WellFormed)
    (h : table.addColumn name column = .ok result) : result.WellFormed := by
  obtain ⟨hn, hl, rfl⟩ := addColumn_eq_ok h
  refine ⟨fun entry he => ?_, length_eq_rowCount_append ht.lengths hl,
    nodup_names_append ht.names hn⟩
  rcases List.mem_append.mp he with he | he
  · exact ht.columns entry he
  · rw [List.mem_singleton.mp he]
    exact hc

theorem Built.wellFormed {table : Table} (h : Built table) : table.WellFormed := by
  induction h with
  | empty => exact ⟨by simp [Table.empty], by simp [Table.empty], List.nodup_nil⟩
  | addColumn _ hc h ih => exact ih.addColumn hc.wellFormed h

/-- Adding the remaining columns of a well-formed table one by one completes it. -/
theorem foldlM_addColumn (done : List (String × Column)) {rest : List (String × Column)}
    (h : WellFormed ⟨done ++ rest⟩) :
    rest.foldlM (fun table entry => addColumn table entry.1 entry.2) ⟨done⟩ =
      .ok ⟨done ++ rest⟩ := by
  induction rest generalizing done with
  | nil => simp [pure, Except.pure]
  | cons entry rest ih =>
      have hn : entry.1 ∉ names ⟨done⟩ := by
        intro hm
        have := h.names
        simp only [Table.names, List.map_append, List.map_cons] at this
        exact (List.nodup_append.mp this).2.2 _ hm _ List.mem_cons_self rfl
      have hl : done ≠ [] → entry.2.length = rowCount ⟨done⟩ := by
        intro hne
        rw [h.lengths entry (by simp)]
        cases done with
        | nil => exact absurd rfl hne
        | cons => rfl
      have hadd : addColumn ⟨done⟩ entry.1 entry.2 = .ok ⟨done ++ [entry]⟩ := addColumn_of_fresh hn hl
      have happ : done ++ entry :: rest = (done ++ [entry]) ++ rest := by simp
      rw [List.foldlM_cons, hadd, happ]
      exact ih (done ++ [entry]) (happ ▸ h)

/-- **A well-formed table is rebuilt from its columns.** -/
theorem WellFormed.ofColumns_eq {table : Table} (h : table.WellFormed) :
    ofColumns table.columns = .ok table :=
  foldlM_addColumn [] h

theorem built_of_foldlM {done result : Table} {rest : List (String × Column)}
    (hd : Built done) (hr : ∀ entry ∈ rest, entry.2.Built)
    (h : rest.foldlM (fun table entry => addColumn table entry.1 entry.2) done = .ok result) :
    Built result := by
  induction rest generalizing done with
  | nil =>
      obtain rfl := Except.ok.inj h
      exact hd
  | cons entry rest ih =>
      rw [List.foldlM_cons, Outcome.bind_eq_ok] at h
      obtain ⟨next, hadd, h⟩ := h
      exact ih (.addColumn hd (hr entry List.mem_cons_self) hadd)
        (fun e he => hr e (List.mem_cons_of_mem _ he)) h

/-- The invariant says exactly that a table can be built. -/
theorem built_iff {table : Table} : Built table ↔ table.WellFormed :=
  ⟨Built.wellFormed, fun h =>
    built_of_foldlM .empty (fun entry he => Column.built_iff.mpr (h.columns entry he))
      h.ofColumns_eq⟩

/-! ### Gathering rows -/

/-- The given rows of every column, in the given order. -/
def take (table : Table) (rows : List Nat) : Except Fault Table :=
  Table.mk <$> table.columns.mapM fun entry => (entry.1, ·) <$> entry.2.take rows

/-- The given rows of every column; rows that do not exist hold placeholders. -/
def taken (table : Table) (rows : List Nat) : Table :=
  ⟨table.columns.map fun entry => (entry.1, entry.2.taken rows)⟩

theorem take_eq {table : Table} (h : table.WellFormed) {rows : List Nat}
    (hrows : ∀ row ∈ rows, row < table.rowCount) : table.take rows = .ok (table.taken rows) := by
  have hcolumns : (table.columns.mapM fun entry => (entry.1, ·) <$> entry.2.take rows) =
      .ok (table.columns.map fun entry => (entry.1, entry.2.taken rows)) :=
    Outcome.mapM_eq_map fun entry he => by
      rw [Column.take_eq (h.columns entry he) fun row hr => h.lengths entry he ▸ hrows row hr]
      rfl
  rw [take, hcolumns]
  rfl

@[simp] theorem names_taken (table : Table) (rows : List Nat) :
    (table.taken rows).names = table.names := by
  simp [taken, names]

theorem get?_taken (table : Table) (rows : List Nat) (name : String) :
    (table.taken rows).get? name = (table.get? name).map (·.taken rows) := by
  unfold get? taken
  induction table.columns with
  | nil => rfl
  | cons entry rest ih =>
      rw [List.map_cons, List.lookup_cons, List.lookup_cons]
      cases name == entry.1
      · exact ih
      · rfl

/-- Where there are columns, the gathered rows are counted. -/
theorem rowCount_taken (table : Table) {rows : List Nat}
    (h : table.columns = [] → rows = []) : (table.taken rows).rowCount = rows.length := by
  obtain ⟨columns⟩ := table
  cases columns with
  | nil => rw [h rfl]; rfl
  | cons first rest => exact Column.length_taken first.2 rows

theorem WellFormed.taken {table : Table} (h : table.WellFormed) {rows : List Nat}
    (hrows : table.columns = [] → rows = []) : (table.taken rows).WellFormed := by
  refine ⟨fun entry he => ?_, fun entry he => ?_, ?_⟩
  · obtain ⟨source, -, rfl⟩ := List.mem_map.mp he
    exact Column.wellFormed_taken source.2 rows
  · obtain ⟨source, -, rfl⟩ := List.mem_map.mp he
    rw [rowCount_taken table hrows]
    exact Column.length_taken source.2 rows
  · rw [names_taken]
    exact h.names

end RowSieve.Table

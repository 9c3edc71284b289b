import Mathlib.Data.List.Nodup
import Mathlib.Logic.Relation
import RowSieve.Proofs.Table
import RowSieve.View.Declare

/-!
# What every view keeps

`View.Invariant` ties the parts of a view to each other: a mask has a bit for every row, names are
given once, the positions are those of the virtual columns, and a virtual column is declared after
its function and its sources.  Its functions give well-formed columns.

* `View.Invariant.induction`: what holds of a column whenever it holds of its sources holds of
  every column.
* `View.invariant_ofTable`, `View.invariant_ofMask`: the views of a table keep the invariant, and so
  does every declaration (`View.Invariant.register`, `View.Invariant.registerTextFunctions`,
  `View.Invariant.define`).
-/

namespace RowSieve

/-! ### Functions -/

/-- The function gives columns that can be built, if it is given such. -/
def ColumnFunction.Sound (function : ColumnFunction) : Prop :=
  ∀ arguments, (∀ argument ∈ arguments, argument.Built) → ∀ output,
    function arguments = .ok output → output.Built

theorem TextFunction.sound_call (function : TextFunction) : function.call.Sound :=
  fun _ ha _ h => .textFunction ha h

theorem ColumnFunction.sound_elementwise (f : List Scalar → Scalar) : (elementwise f).Sound :=
  fun _ ha _ h => .elementwise ha h

namespace Registry

/-- Every function of the registry gives columns that can be built. -/
def Sound (registry : Registry) : Prop :=
  ∀ name function, registry.get? name = some function → function.Sound

theorem mem_of_get? {registry : Registry} {name : String} {function : ColumnFunction}
    (h : registry.get? name = some function) : (name, function) ∈ registry.entries := by
  rw [get?, List.lookup_eq_some_iff] at h
  obtain ⟨before, after, h, -⟩ := h
  rw [h]
  simp

theorem register_eq_ok {registry result : Registry} {name : String} {function : ColumnFunction}
    (h : registry.register name function = .ok result) :
    registry.contains name = false ∧ result = ⟨registry.entries ++ [(name, function)]⟩ := by
  rw [register] at h
  split at h
  · cases h
  next hn => exact ⟨by simpa using hn, (Except.ok.inj h).symm⟩

theorem get?_of_register {registry result : Registry} {name : String} {function : ColumnFunction}
    (h : registry.register name function = .ok result) (other : String) :
    result.get? other = (registry.get? other).or (if other = name then some function else none) := by
  obtain ⟨-, rfl⟩ := register_eq_ok h
  rw [get?, List.lookup_append, get?, List.lookup_cons, List.lookup_nil]
  by_cases ho : other = name
  · simp [ho]
  · simp [ho, beq_eq_false_iff_ne.mpr ho]

theorem contains_of_register {registry result : Registry} {name : String}
    {function : ColumnFunction} (h : registry.register name function = .ok result) {other : String}
    (ho : registry.contains other = true) : result.contains other = true := by
  rw [contains, get?_of_register h, Option.isSome_or, ← contains, ho, Bool.true_or]

theorem Sound.register {registry result : Registry} (hr : registry.Sound) {name : String}
    {function : ColumnFunction} (hf : function.Sound)
    (h : registry.register name function = .ok result) : result.Sound := by
  intro other g hg
  rw [get?_of_register h, Option.or_eq_some_iff] at hg
  rcases hg with hg | ⟨-, hg⟩
  · exact hr other g hg
  · split at hg
    · cases hg
      exact hf
    · cases hg

theorem contains_registerAll {named : List (String × ColumnFunction)} {registry : Registry}
    {other : String} (ho : registry.contains other = true) :
    (registry.registerAll named).1.contains other = true := by
  induction named generalizing registry with
  | nil => exact ho
  | cons entry rest ih =>
      rw [registerAll]
      split
      next result h => exact ih (contains_of_register h ho)
      next => exact ho

theorem Sound.registerAll {named : List (String × ColumnFunction)} {registry : Registry}
    (hr : registry.Sound) (hn : ∀ entry ∈ named, entry.2.Sound) :
    (registry.registerAll named).1.Sound := by
  induction named generalizing registry with
  | nil => exact hr
  | cons entry rest ih =>
      rw [Registry.registerAll]
      split
      next result h =>
        exact ih (hr.register (hn entry List.mem_cons_self) h) fun e he =>
          hn e (List.mem_cons_of_mem _ he)
      next => exact hr

end Registry

theorem TextFunction.sound_named : ∀ entry ∈ named, entry.2.Sound := by
  intro entry he
  simp only [named, List.mem_cons, List.not_mem_nil, or_false] at he
  rcases he with rfl | rfl | rfl | rfl <;> exact sound_call _

namespace View

/-! ### The invariant -/

/-- The names of the virtual columns, in the order of their declarations. -/
def virtualNames (view : View) : List String :=
  view.virtuals.map (·.name)

/-- **What every view keeps.** -/
structure Invariant (view : View) : Prop where
  table : view.table.WellFormed
  /-- A mask has a bit for every row. -/
  mask : ∀ mask, view.mask = some mask →
    mask.bits.WellFormed ∧ mask.length = view.table.rowCount
  /-- No two columns have one name. -/
  names : view.columnNames.Nodup
  /-- The positions are those of the virtual columns. -/
  positions : ∀ (name : String) (position : Nat),
    view.positions[name]? = some position ↔ view.virtualNames[position]? = some name
  functions : ∀ column ∈ view.virtuals, view.functions.contains column.function = true
  /-- The sources of a virtual column are stored, or declared before it. -/
  sources : ∀ (position : Nat) (column : VirtualColumn), view.virtuals[position]? = some column →
    ∀ source ∈ column.sources, source ∈ view.table.names ∨
      ∃ earlier < position, view.virtualNames[earlier]? = some source
  sound : view.functions.Sound

/-- The second column is a source of the first, which is virtual. -/
def DirectSource (view : View) (name source : String) : Prop :=
  ∃ column, view.virtualColumn? name = some column ∧ source ∈ column.sources

/-- A virtual column ranks by its declaration, below all of them a stored one. -/
def rank (view : View) (name : String) : Nat :=
  match view.positions[name]? with
  | some position => position + 1
  | none => 0

namespace Invariant

variable {view : View}

/-! ### Rows -/

theorem visibleCount_eq (h : view.Invariant) : view.visibleCount = view.rows.length := by
  unfold visibleCount rows
  split
  next mask hm => exact (h.mask mask hm).1.length_indices.symm
  next => rw [List.length_range]

theorem lt_of_mem_rows (h : view.Invariant) {row : Nat} (hr : row ∈ view.rows) :
    row < view.table.rowCount := by
  rw [rows] at hr
  split at hr
  next mask hm =>
    obtain ⟨hwf, hl⟩ := h.mask mask hm
    exact hl ▸ (hwf.mem_indices.mp hr).1
  next => exact List.mem_range.mp hr

theorem rows_eq_nil (h : view.Invariant) (ht : view.table.columns = []) : view.rows = [] := by
  refine List.eq_nil_iff_forall_not_mem.mpr fun row hr => ?_
  have := h.lt_of_mem_rows hr
  rw [Table.rowCount, ht] at this
  exact Nat.not_lt_zero row this

/-! ### Names -/

theorem virtualColumn?_eq_some_iff (h : view.Invariant) {name : String} {column : VirtualColumn} :
    view.virtualColumn? name = some column ↔ column ∈ view.virtuals ∧ column.name = name := by
  rw [virtualColumn?, Option.bind_eq_some_iff]
  constructor
  · rintro ⟨position, hp, hc⟩
    have hn := (h.positions name position).mp hp
    rw [virtualNames, List.getElem?_map, hc] at hn
    exact ⟨List.mem_of_getElem? hc, Option.some.inj hn⟩
  · rintro ⟨hm, rfl⟩
    obtain ⟨position, hp⟩ := List.mem_iff_getElem?.mp hm
    refine ⟨position, (h.positions _ position).mpr ?_, hp⟩
    rw [virtualNames, List.getElem?_map, hp]
    rfl

theorem virtualColumn?_eq_none_iff (h : view.Invariant) {name : String} :
    view.virtualColumn? name = none ↔ name ∉ view.virtualNames := by
  rw [Option.eq_none_iff_forall_ne_some, virtualNames, List.mem_map]
  constructor
  · rintro hn ⟨column, hm, rfl⟩
    exact hn column (h.virtualColumn?_eq_some_iff.mpr ⟨hm, rfl⟩)
  · rintro hn column hc
    exact hn ⟨column, h.virtualColumn?_eq_some_iff.mp hc⟩

theorem positions_contains_iff (h : view.Invariant) {name : String} :
    view.positions.contains name = true ↔ name ∈ view.virtualNames := by
  rw [Std.HashMap.contains_eq_isSome_getElem?, Option.isSome_iff_exists, List.mem_iff_getElem?]
  exact exists_congr (h.positions name)

theorem contains_iff (h : view.Invariant) {name : String} :
    view.contains name = true ↔ name ∈ view.columnNames := by
  rw [contains, Bool.or_eq_true, Table.contains_iff, h.positions_contains_iff]
  exact List.mem_append.symm

theorem mem_columnNames_of_source (h : view.Invariant) {name source : String}
    (hs : view.DirectSource name source) : source ∈ view.columnNames := by
  obtain ⟨column, hc, hs⟩ := hs
  obtain ⟨hm, -⟩ := h.virtualColumn?_eq_some_iff.mp hc
  obtain ⟨position, hp⟩ := List.mem_iff_getElem?.mp hm
  refine List.mem_append.mpr ((h.sources position column hp source hs).imp_right ?_)
  rintro ⟨earlier, -, he⟩
  exact List.mem_of_getElem? he

/-! ### Declaration order -/

theorem rank_eq (h : view.Invariant) {name : String} {position : Nat}
    (hp : view.virtualNames[position]? = some name) : view.rank name = position + 1 := by
  rw [rank, (h.positions name position).mpr hp]

theorem rank_le_length (h : view.Invariant) (name : String) :
    view.rank name ≤ view.virtuals.length := by
  rw [rank]
  split
  next position hp =>
    have hlt := (List.getElem?_eq_some_iff.mp ((h.positions name position).mp hp)).1
    rwa [virtualNames, List.length_map] at hlt
  next => exact Nat.zero_le _

theorem rank_lt (h : view.Invariant) {name source : String} (hs : view.DirectSource name source) :
    view.rank source < view.rank name := by
  obtain ⟨column, hc, hs⟩ := hs
  obtain ⟨position, hp, hc⟩ := Option.bind_eq_some_iff.mp hc
  have hname : view.rank name = position + 1 := by rw [rank, hp]
  rcases h.sources position column hc source hs with ht | ⟨earlier, hlt, he⟩
  · have hnone : view.positions[source]? = none := by
      refine Option.eq_none_iff_forall_ne_some.mpr fun other ho => ?_
      rw [h.positions] at ho
      exact (List.nodup_append.mp h.names).2.2 _ ht _ (List.mem_of_getElem? ho) rfl
    rw [hname, rank, hnone]
    exact Nat.succ_pos position
  · rw [hname, h.rank_eq he]
    exact Nat.succ_lt_succ hlt

/-- **Induction on declarations**: what holds of a column whenever it holds of its sources holds
of every column. -/
theorem induction (h : view.Invariant) {motive : String → Prop}
    (step : ∀ name, (∀ source, view.DirectSource name source → motive source) → motive name)
    (name : String) : motive name := by
  induction hr : view.rank name using Nat.strongRecOn generalizing name with
  | ind r ih =>
      refine step name fun source hs => ih _ ?_ source rfl
      exact hr ▸ h.rank_lt hs

theorem rank_le (h : view.Invariant) {name source : String}
    (hr : Relation.ReflTransGen view.DirectSource name source) :
    view.rank source ≤ view.rank name := by
  induction hr with
  | refl => exact Nat.le_refl _
  | tail _ hd ih => exact Nat.le_trans (Nat.le_of_lt (h.rank_lt hd)) ih

/-- No virtual column needs itself. -/
theorem not_transGen_self (h : view.Invariant) {name source : String}
    (hs : view.DirectSource name source) : ¬ Relation.ReflTransGen view.DirectSource source name := by
  intro hr
  exact absurd (h.rank_lt hs) (Nat.not_lt.mpr (h.rank_le hr))

end Invariant

/-! ### Making views -/

theorem invariant_ofTable {table : Table} (ht : table.WellFormed) : (ofTable table).Invariant where
  table := ht
  mask := fun _ hm => nomatch hm
  names := by simpa [columnNames, ofTable] using ht.names
  positions := by simp [ofTable, virtualNames]
  functions := by simp [ofTable]
  sources := by simp [ofTable]
  sound := fun _ _ hf => nomatch hf

/-- The same view behind another mask. -/
theorem Invariant.withMask {view : View} (h : view.Invariant) {mask : Option Mask}
    (hm : ∀ m, mask = some m → m.bits.WellFormed ∧ m.length = view.table.rowCount) :
    Invariant { view with mask } :=
  { h with mask := hm }

theorem ofMask_eq_ok {table : Table} {mask : Mask} {view : View}
    (h : (ofMask table mask).outcome = .ok view) :
    mask.length = table.rowCount ∧ view = { ofTable table with mask := some mask } := by
  rw [ofMask] at h
  split at h
  next hl => exact ⟨hl, (Except.ok.inj h).symm⟩
  · cases h

theorem invariant_ofMask {table : Table} (ht : table.WellFormed) {mask : Mask}
    (hm : mask.bits.WellFormed) {view : View} (h : (ofMask table mask).outcome = .ok view) :
    view.Invariant := by
  obtain ⟨hl, rfl⟩ := ofMask_eq_ok h
  refine (invariant_ofTable ht).withMask fun other ho => ?_
  cases ho
  exact ⟨hm, hl⟩

theorem Invariant.withMaxDepth {view : View} (h : view.Invariant) (maxDepth : Nat) :
    (view.withMaxDepth maxDepth).Invariant :=
  { h with }

/-! ### Declaring -/

theorem Invariant.withFunctions {view : View} (h : view.Invariant) {functions : Registry}
    (hc : ∀ name, view.functions.contains name = true → functions.contains name = true)
    (hs : functions.Sound) : Invariant { view with functions } :=
  { h with
    functions := fun column hm => hc _ (h.functions column hm)
    sound := hs }

theorem Invariant.register {view result : View} (h : view.Invariant) {name : String}
    {function : ColumnFunction} (hf : function.Sound)
    (hr : view.register name function = .ok result) : result.Invariant := by
  obtain ⟨functions, hfs, rfl⟩ := Outcome.map_eq_ok.mp hr
  exact h.withFunctions (fun _ => Registry.contains_of_register hfs) (h.sound.register hf hfs)

theorem Invariant.registerTextFunctions {view : View} (h : view.Invariant) :
    view.registerTextFunctions.1.Invariant := by
  refine h.withFunctions (fun name hn => ?_) (h.sound.registerAll TextFunction.sound_named)
  show (view.functions.registerAll TextFunction.named).1.contains name = true
  exact Registry.contains_registerAll hn

theorem define_eq_ok {view result : View} {name function : String} {sources : List String}
    (h : (view.define name function sources).outcome = .ok result) :
    view.contains name = false ∧ view.functions.contains function = true ∧
      (∀ source ∈ sources, view.contains source = true) ∧
      result = view.insertVirtual ⟨name, function, sources⟩ := by
  rw [define] at h
  split at h
  · cases h
  next hn =>
    split at h
    · cases h
    next hf =>
      split at h
      · cases h
      next hs =>
        refine ⟨by simpa using hn, by simpa using hf, fun source hm => ?_, (Except.ok.inj h).symm⟩
        simpa using List.find?_eq_none.mp hs source hm

theorem define_eq {view : View} {name function : String} {sources : List String}
    (hn : view.contains name = false) (hf : view.functions.contains function = true)
    (hs : ∀ source ∈ sources, view.contains source = true) :
    view.define name function sources = ⟨.ok (view.insertVirtual ⟨name, function, sources⟩),
      [.declared ⟨name, function, sources⟩]⟩ := by
  have hfind : sources.find? (fun source => !view.contains source) = none :=
    List.find?_eq_none.mpr fun source hm => by simp [hs source hm]
  rw [define, hn, hf, hfind]
  rfl

theorem getElem?_append_singleton {α : Type} {xs : List α} {x y : α} {index : Nat} :
    (xs ++ [x])[index]? = some y ↔ xs[index]? = some y ∨ index = xs.length ∧ x = y := by
  rcases Nat.lt_trichotomy index xs.length with hi | hi | hi
  · simp [List.getElem?_append_left hi, Nat.ne_of_lt hi]
  · simp [hi]
  · have hnone : (xs ++ [x])[index]? = none :=
      List.getElem?_eq_none (by rw [List.length_append]; exact hi)
    simp [hnone, List.getElem?_eq_none (Nat.le_of_lt hi), Nat.ne_of_gt hi]

/-- Where there are no virtual columns and one stored one, that is the only column. -/
theorem contains_of_names {view : View} {stored : String} (hp : view.positions = ∅)
    (hn : view.table.names = [stored]) (name : String) : view.contains name = (name == stored) := by
  rw [contains, hp, Std.HashMap.contains_empty, Bool.or_false, Bool.eq_iff_iff, Table.contains_iff,
    hn, List.mem_singleton, beq_iff_eq]

theorem contains_insertVirtual (view : View) (column : VirtualColumn) (name : String) :
    (view.insertVirtual column).contains name = (view.contains name || column.name == name) := by
  rw [contains, contains, insertVirtual, Std.HashMap.contains_insert,
    Bool.or_comm (column.name == name), Bool.or_assoc]

theorem virtualNames_insertVirtual (view : View) (column : VirtualColumn) :
    (view.insertVirtual column).virtualNames = view.virtualNames ++ [column.name] :=
  List.map_append

theorem Invariant.insertVirtual {view : View} (h : view.Invariant) {column : VirtualColumn}
    (hn : column.name ∉ view.columnNames) (hf : view.functions.contains column.function = true)
    (hs : ∀ source ∈ column.sources, source ∈ view.columnNames) :
    (view.insertVirtual column).Invariant where
  table := h.table
  mask := h.mask
  names := by
    show (view.table.names ++ (view.insertVirtual column).virtualNames).Nodup
    rw [virtualNames_insertVirtual, ← List.append_assoc]
    exact h.names.append (List.nodup_singleton _) (List.disjoint_singleton.mpr hn)
  positions := by
    intro name position
    show (view.positions.insert column.name view.virtuals.length)[name]? = some position ↔ _
    rw [virtualNames_insertVirtual, getElem?_append_singleton, Std.HashMap.getElem?_insert,
      ← h.positions]
    by_cases hname : column.name = name
    · -- The new name has no position yet.
      have hnone : view.positions[name]? ≠ some position := fun hp => by
        have hm := List.mem_of_getElem? ((h.positions name position).mp hp)
        exact hn (hname ▸ List.mem_append_right _ hm)
      simp [hname, hnone, virtualNames, eq_comm]
    · simp [hname]
  functions := fun other hm => by
    rcases List.mem_append.mp hm with hm | hm
    · exact h.functions other hm
    · rw [List.mem_singleton.mp hm]
      exact hf
  sources := by
    intro position other ho source hs'
    rw [virtualNames_insertVirtual]
    rcases getElem?_append_singleton.mp ho with ho | ⟨rfl, rfl⟩
    · -- an earlier declaration, whose sources stay where they are
      refine (h.sources position other ho source hs').imp_right ?_
      rintro ⟨earlier, hlt, he⟩
      exact ⟨earlier, hlt, getElem?_append_singleton.mpr (.inl he)⟩
    · -- the new one, which comes last
      refine (List.mem_append.mp (hs source hs')).imp_right fun hm => ?_
      obtain ⟨earlier, he⟩ := List.mem_iff_getElem?.mp hm
      have hlt := (List.getElem?_eq_some_iff.mp he).1
      rw [List.length_map] at hlt
      exact ⟨earlier, hlt, getElem?_append_singleton.mpr (.inl he)⟩
  sound := h.sound

theorem Invariant.define {view result : View} (h : view.Invariant) {name function : String}
    {sources : List String} (hd : (view.define name function sources).outcome = .ok result) :
    result.Invariant := by
  obtain ⟨hn, hf, hs, rfl⟩ := define_eq_ok hd
  refine h.insertVirtual ?_ hf fun source hm => h.contains_iff.mp (hs source hm)
  rw [← h.contains_iff, hn]
  exact Bool.false_ne_true

end View

end RowSieve

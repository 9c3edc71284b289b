import RowSieve.Proofs.View.Requests

/-!
# Hidden rows

The view of a table through a mask answers every question as a view that shows all of a smaller
table, the visible rows of the first.  `View.compacted` is that view.

* `View.Invariant.resolveAt_compacted`: the two resolve columns step for step alike, from every
  resolver.
* `View.Reachable.compaction`: hence they evaluate and copy alike, calling the same functions with
  the same arguments, and narrow alike, up to the numbering of rows.
-/

namespace RowSieve.View

open Resolve

/-! ### Resolving -/

/-- The view of all rows of a table, with the functions and virtual columns of another view. -/
def showing (view : View) (table : Table) : View :=
  { view with table, mask := none }

/-- The view of the visible rows alone. -/
def compacted (view : View) : View :=
  view.showing (view.table.taken view.rows)

section Compacted

variable {view : View}

theorem Invariant.rowCount_compacted (h : view.Invariant) :
    view.compacted.table.rowCount = view.rows.length :=
  Table.rowCount_taken view.table h.rows_eq_nil

theorem Invariant.visibleCount_compacted (h : view.Invariant) :
    view.compacted.visibleCount = view.visibleCount :=
  h.rowCount_compacted.trans h.visibleCount_eq.symm

theorem Invariant.resolvedCount_compacted (h : view.Invariant) :
    view.compacted.resolvedCount = view.resolvedCount :=
  h.visibleCount_compacted.trans h.resolvedCount_eq.symm

theorem columnNames_compacted (view : View) : view.compacted.columnNames = view.columnNames := by
  rw [columnNames, columnNames, compacted, showing, Table.names_taken]

theorem Invariant.compacted (h : view.Invariant) : view.compacted.Invariant where
  table := h.table.taken h.rows_eq_nil
  mask := fun _ hm => nomatch hm
  names := by
    rw [columnNames_compacted]
    exact h.names
  positions := h.positions
  functions := h.functions
  sources := by
    rw [View.compacted, showing, Table.names_taken]
    exact h.sources
  sound := h.sound

theorem Invariant.gather_compacted (h : view.Invariant) (path : List String) (name : String) :
    view.gather path name = view.compacted.gather path name := by
  have htable : view.compacted.table.get? name = (view.table.get? name).map (·.taken view.rows) :=
    Table.get?_taken view.table view.rows name
  cases hg : view.table.get? name with
  | none => rw [gather, gather, htable, hg]; rfl
  | some stored =>
      rw [hg] at htable
      rw [h.gather_eq path hg, gather, htable]
      rfl

/-- **Resolving a column** goes through the same steps in the compacted view. -/
theorem Invariant.resolveAt_compacted (h : view.Invariant) (room : Nat) (path : List String)
    (name : String) : view.resolveAt room path name = view.compacted.resolveAt room path name := by
  have hcompute : view.compute = view.compacted.compute := by
    funext path column function arguments
    rw [compute, compute, h.resolvedCount_compacted]
  induction room generalizing path name with
  | zero =>
      rw [resolveAt, resolveAt, h.gather_compacted]
      rfl
  | succ room ih =>
      have hsources : view.resolveAt room = view.compacted.resolveAt room := by
        funext path name
        exact ih path name
      rw [resolveAt, resolveAt, h.gather_compacted, hcompute]
      dsimp only
      rw [hsources]
      rfl

theorem Invariant.resolve_compacted (h : view.Invariant) :
    view.resolve = view.compacted.resolve := by
  funext name resolver
  show view.resolveAt _ _ name resolver = view.compacted.resolveAt _ _ name resolver
  rw [h.resolveAt_compacted]
  rfl

/-- Requests for one column after another run alike, and so do copies. -/
theorem Invariant.evaluate_compacted (h : view.Invariant) (name : String) :
    view.evaluate name = view.compacted.evaluate name := by
  rw [evaluate, evaluate, request, request, h.resolve_compacted]

theorem Invariant.extract_compacted (h : view.Invariant) :
    view.extract = view.compacted.extract := by
  have hcopy : view.copyColumn = view.compacted.copyColumn := by
    funext table name
    rw [copyColumn, copyColumn, h.resolve_compacted]
  rw [extract, extract, hcopy, columnNames_compacted]

end Compacted

/-! ### Narrowing -/

/-- **Two views that resolve columns alike** narrow alike: both fail, or both select the rows at the
places of the same ones. -/
theorem Invariant.filter_of_resolve_eq {view other : View} (h : view.Invariant)
    (ho : other.Invariant) (hr : view.resolve = other.resolve)
    (hn : view.columnNames = other.columnNames) (hc : view.visibleCount = other.visibleCount)
    (predicate : Predicate) :
    (∃ cause journal, view.filter predicate = ⟨.error cause, journal⟩ ∧
        other.filter predicate = ⟨.error cause, journal⟩) ∨
      ∃ bits wide wide' : Bits, ∃ journal, bits.WellFormed ∧ bits.length = view.visibleCount ∧
        view.widen bits = .ok wide ∧ other.widen bits = .ok wide' ∧
        view.filter predicate = ⟨.ok { view with mask := some ⟨wide⟩ },
          journal ++ [.derived wide.count view.table.rowCount]⟩ ∧
        other.filter predicate = ⟨.ok { other with mask := some ⟨wide'⟩ },
          journal ++ [.derived wide'.count other.table.rowCount]⟩ := by
  have hcontains : view.contains = other.contains := by
    funext name
    rw [Bool.eq_iff_iff, h.contains_iff, ho.contains_iff, hn]
  have hsearch : view.search predicate = other.search predicate := by rw [search, search, hr]
  rw [View.filter, View.filter, hcontains]
  cases predicate.columns.find? fun name => !other.contains name with
  | some missing => exact .inl ⟨_, _, rfl, rfl⟩
  | none =>
      cases hs : view.search predicate .fresh with
      | error cause next =>
          refine .inl ⟨cause, next.journal, ?_, ?_⟩
          · dsimp only
            rw [run_of_error (narrow_of_error hs)]
            rfl
          · dsimp only
            rw [run_of_error (narrow_of_error (hsearch ▸ hs))]
            rfl
      | ok bits next =>
          -- what is found are bits of the visible rows, so that both views can widen them
          have ha := h.agrees_search predicate .fresh view.memoSound_fresh rfl
          rw [hs] at ha
          cases ha with
          | ok _ _ hm =>
              obtain ⟨hb, hl⟩ := h.selected_eq_ok hm
              obtain ⟨wide, hw, -⟩ := h.widen_eq_ok hb hl
              obtain ⟨wide', hw', -⟩ := ho.widen_eq_ok hb (hl.trans hc)
              refine .inr ⟨bits, wide, wide', next.journal, hb, hl, hw, hw', ?_, ?_⟩
              · dsimp only
                rw [run_of_ok (narrow_of_ok hs hw)]
                rfl
              · dsimp only
                rw [run_of_ok (narrow_of_ok (hsearch ▸ hs) hw')]
                rfl

/-! ### Reaching the compacted view -/

theorem after_table (view : View) (operation : Operation) :
    (view.after operation).table = view.table := by
  cases operation with
  | limit | registerTextFunctions => rfl
  | register name function =>
      refine getD_toOption (motive := fun result => result.table = view.table) rfl fun _ hr => ?_
      obtain ⟨functions, -, rfl⟩ := Outcome.map_eq_ok.mp hr
      rfl
  | define name function sources =>
      refine getD_toOption (motive := fun result => result.table = view.table) rfl fun _ hr => ?_
      obtain ⟨-, -, -, rfl⟩ := define_eq_ok hr
      rfl
  | filter predicate =>
      refine getD_toOption (motive := fun result => result.table = view.table) rfl fun _ hr => ?_
      obtain ⟨-, mask, -, rfl⟩ := filter_eq_ok hr
      rfl

theorem define_showing {view : View} {table : Table} (hn : table.names = view.table.names)
    (name function : String) (sources : List String) :
    ((view.showing table).define name function sources).outcome =
      (·.showing table) <$> (view.define name function sources).outcome := by
  have hcontains : (view.showing table).contains = view.contains := by
    funext name
    have ht : table.contains name = view.table.contains name := by
      rw [Bool.eq_iff_iff, Table.contains_iff, Table.contains_iff, hn]
    exact congrArg (· || view.positions.contains name) ht
  rw [define, define, hcontains]
  cases view.contains name with
  | true => rfl
  | false =>
      show Run.outcome (if !view.functions.contains function then _ else _) = _
      cases view.functions.contains function with
      | false => rfl
      | true =>
          cases sources.find? fun source => !view.contains source with
          | none => rfl
          | some missing => rfl

/-- **Another table of the same names** under the declarations of a view that can be reached makes a
view that can be reached. -/
theorem Reachable.showing {view : View} (h : view.Reachable) {table : Table} (ht : table.Built)
    (hn : table.names = view.table.names) : (view.showing table).Reachable := by
  induction h with
  | ofTable => exact .ofTable ht
  | ofMask _ _ h =>
      -- the mask fits the other table only, and is dropped
      obtain ⟨-, rfl⟩ := ofMask_eq_ok h
      exact .ofTable ht
  | @after view hv operation ho ih =>
      rw [after_table] at hn
      have hview := ih hn
      cases operation with
      | limit maxDepth =>
          show ((view.showing table).after (.limit maxDepth)).Reachable
          exact hview.after ho
      | register name function =>
          have hafter : (view.after (.register name function)).showing table =
              (view.showing table).after (.register name function) := by
            rw [View.after, View.after, register, register]
            show _ = Option.getD (Except.toOption (Except.map _
              (view.functions.register name function))) _
            cases view.functions.register name function <;> rfl
          rw [hafter]
          exact hview.after ho
      | registerTextFunctions =>
          show ((view.showing table).after .registerTextFunctions).Reachable
          exact hview.after ho
      | define name function sources =>
          have hafter : (view.after (.define name function sources)).showing table =
              (view.showing table).after (.define name function sources) := by
            rw [View.after, View.after, define_showing hn]
            cases (view.define name function sources).outcome <;> rfl
          rw [hafter]
          exact hview.after ho
      | filter predicate =>
          refine getD_toOption (motive := fun result => (result.showing table).Reachable) hview ?_
          intro result hr
          obtain ⟨-, mask, -, rfl⟩ := filter_eq_ok hr
          exact hview

/-! ### Answers alike -/

/-- The views answer every question alike: with the same value, error or fault, after the same
events, the arguments of every function called among them. -/
structure Alike (view other : View) : Prop where
  evaluate : ∀ name, view.evaluate name = other.evaluate name
  extract : view.extract = other.extract
  filter : ∀ predicate,
    (view.filter predicate).map View.mask = (other.filter predicate).map View.mask

/-- The views answer every question alike, except that the rows visible in one are numbered afresh in
the other.  Only the last event of a successful narrowing tells the numbers of rows. -/
structure Renumbered (view other : View) : Prop where
  evaluate : ∀ name, view.evaluate name = other.evaluate name
  extract : view.extract = other.extract
  filter : ∀ predicate,
    (∃ cause journal, view.filter predicate = ⟨.error cause, journal⟩ ∧
        other.filter predicate = ⟨.error cause, journal⟩) ∨
      ∃ narrowed renumbered : View, ∃ journal,
        view.filter predicate = ⟨.ok narrowed,
          journal ++ [.derived narrowed.visibleCount view.table.rowCount]⟩ ∧
        other.filter predicate = ⟨.ok renumbered,
          journal ++ [.derived renumbered.visibleCount other.table.rowCount]⟩ ∧
        narrowed.rows.map some = renumbered.rows.map (view.rows[·]?)

/-- **The compacted view** answers alike. -/
theorem Invariant.renumbered_compacted {view : View} (h : view.Invariant) :
    view.Renumbered view.compacted where
  evaluate := h.evaluate_compacted
  extract := h.extract_compacted
  filter := fun predicate => by
    refine (h.filter_of_resolve_eq h.compacted h.resolve_compacted
      (columnNames_compacted view).symm h.visibleCount_compacted.symm predicate).imp_right ?_
    rintro ⟨bits, wide, wide', journal, hb, hl, hw, hw', hf, hf'⟩
    obtain ⟨other, ho, -, -, hrows⟩ := h.widen_eq_ok hb hl
    obtain rfl := Except.ok.inj (ho.symm.trans hw)
    obtain rfl : bits = wide' := Except.ok.inj hw'
    exact ⟨_, _, journal, hf, hf', hrows⟩

/-- **What is hidden does not matter**: views of the same visible rows answer alike. -/
theorem Invariant.alike_of_compacted_eq {view other : View} (h : view.Invariant)
    (ho : other.Invariant) (hc : view.compacted = other.compacted) (hrows : view.rows = other.rows)
    (hcount : view.table.rowCount = other.table.rowCount) : view.Alike other where
  evaluate := fun name => by
    rw [h.evaluate_compacted, ho.evaluate_compacted, hc]
  extract := by rw [h.extract_compacted, ho.extract_compacted, hc]
  filter := fun predicate => by
    have hresolve : view.resolve = other.resolve := by
      rw [h.resolve_compacted, ho.resolve_compacted, hc]
    have hnames : view.columnNames = other.columnNames := by
      rw [← columnNames_compacted view, ← columnNames_compacted other, hc]
    have hvisible : view.visibleCount = other.visibleCount := by
      rw [h.visibleCount_eq, ho.visibleCount_eq, hrows]
    rcases h.filter_of_resolve_eq ho hresolve hnames hvisible predicate with
      ⟨cause, journal, hf, hf'⟩ | ⟨bits, wide, wide', journal, hb, hl, hw, hw', hf, hf'⟩
    · rw [hf, hf']
    · obtain ⟨_, hs, hwf, hwl, hwide⟩ := h.widen_eq_ok hb hl
      obtain rfl := Except.ok.inj (hs.symm.trans hw)
      obtain ⟨_, hs', hwf', hwl', hwide'⟩ := ho.widen_eq_ok hb (hl.trans hvisible)
      obtain rfl := Except.ok.inj (hs'.symm.trans hw')
      rw [hrows] at hwide
      have hindices := (List.map_injective_iff.mpr (Option.some_injective Nat))
        (hwide.trans hwide'.symm)
      rw [hf, hf', hwf.eq_of_indices hwf' (hwl.trans (hcount.trans hwl'.symm)) hindices, hcount]
      rfl

/-- **Hiding rows is taking the others**, and nothing more. -/
theorem Reachable.compaction {view : View} (h : view.Reachable) :
    (∃ table, view.table.take view.rows = .ok table ∧ (view.showing table).Reachable ∧
        view.Renumbered (view.showing table)) ∧
      (∀ other : View, other.Reachable → other.showing view.table = view.showing view.table →
        other.rows = view.rows → other.table.rowCount = view.table.rowCount →
        other.table.take view.rows = view.table.take view.rows → other.Alike view) ∧
      (view.mask = none → view.Alike { view with mask := some (.all view.table.rowCount) }) := by
  have hi := h.invariant
  have htake : view.table.take view.rows = .ok (view.table.taken view.rows) :=
    Table.take_eq hi.table fun row hr => hi.lt_of_mem_rows hr
  refine ⟨⟨_, htake, ?_, hi.renumbered_compacted⟩, fun other hr ho hrows hcount ht => ?_,
    fun hm => ?_⟩
  · exact h.showing (Table.built_iff.mpr (hi.table.taken hi.rows_eq_nil)) (Table.names_taken _ _)
  · have hoi := hr.invariant
    have htake' : other.table.take view.rows = .ok (other.table.taken view.rows) :=
      Table.take_eq hoi.table fun row hr => hoi.lt_of_mem_rows (hrows ▸ hr)
    rw [htake, htake'] at ht
    refine hoi.alike_of_compacted_eq hi ?_ hrows hcount
    rw [compacted, compacted, hrows, Except.ok.inj ht]
    exact congrArg (·.showing (view.table.taken view.rows)) ho
  · have hall : Invariant { view with mask := some (.all view.table.rowCount) } :=
      hi.withMask fun mask hmask => by
        cases hmask
        exact ⟨Bits.wellFormed_allSet _, rfl⟩
    have hrows : view.rows = rows { view with mask := some (.all view.table.rowCount) } := by
      rw [rows, hm]
      exact (Bits.indices_allSet view.table.rowCount).symm
    refine hi.alike_of_compacted_eq hall ?_ hrows rfl
    rw [compacted, compacted, ← hrows]
    rfl

/-- The visible texts make a table of two rows. -/
theorem compaction_capitals :
    capitals.Reachable ∧ capitals.rows = [0, 2] ∧
      ∃ table, capitals.table.take [0, 2] = .ok table ∧ (capitals.showing table).Reachable ∧
        capitals.Renumbered (capitals.showing table) := by
  have hrows : capitals.rows = [0, 2] := by decide +kernel
  have h := reachable_capitals.compaction.1
  rw [hrows] at h
  exact ⟨reachable_capitals, hrows, h⟩

end RowSieve.View

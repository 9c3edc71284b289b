import RowSieve.Proofs.Column.Equality
import RowSieve.Proofs.RowLocal

/-!
# What stands behind a null

The slot of a null holds a placeholder, and functions on texts compute on placeholders as they do on
texts.  Columns that differ there alone have the same cells, and nothing that is done with columns
tells them apart.

* `Column.Matches.taken`: gathering rows of columns that match.
* `Test.bits_of_matches`: putting them to a test gives the same bits.
* `ColumnFunction.Lifted.related`: applying a lifted function, or a function on texts, gives columns
  that match again.
* `Table.Matches.select_eq`: tables of such columns select the same rows.
-/

namespace RowSieve

namespace Column

/-! ### Columns -/

/-- **The same cells**: columns of one type and one validity that differ at most in the slots behind
nulls. -/
structure SameCells (left right : Column) : Prop where
  kind : left.kind = right.kind
  validity : left.validity = right.validity
  values : left.values = right.values

/-- Columns with the same cells, the first of them well-formed, and so the second. -/
structure Matches (left right : Column) : Prop where
  wellFormed : left.WellFormed
  same : left.SameCells right

section Columns

variable {left right : Column}

theorem Matches.refl {column : Column} (h : column.WellFormed) : column.Matches column :=
  ⟨h, rfl, rfl, rfl⟩

theorem SameCells.length (h : left.SameCells right) : left.length = right.length := by
  rw [← length_values, h.values, length_values]

theorem Matches.wellFormed_right (h : left.Matches right) : right.WellFormed :=
  h.wellFormed.of_validity h.same.validity.symm h.same.length.symm

/-- Nothing behind a null shows in equality. -/
theorem Matches.equal (h : left.Matches right) : left.Equal right :=
  ⟨h.wellFormed, h.wellFormed_right, beq_of_values h.same.kind h.same.values⟩

theorem cell_of_length_le {column : Column} {row : Nat} (h : column.length ≤ row) :
    column.cell row = .null := by
  rw [cell, readCell_of_none (Array.getElem?_eq_none h)]

theorem SameCells.cell (h : left.SameCells right) (row : Nat) : left.cell row = right.cell row := by
  by_cases hr : row < left.length
  · have hl := getElem?_values hr
    rw [h.values, getElem?_values (h.length ▸ hr)] at hl
    exact (Option.some.inj hl).symm
  · rw [cell_of_length_le (not_lt.mp hr), cell_of_length_le (h.length ▸ not_lt.mp hr)]

/-- Columns have the same values if they have the same cells in every row. -/
theorem values_congr (hl : left.length = right.length)
    (hc : ∀ row < left.length, left.cell row = right.cell row) : left.values = right.values := by
  refine values_eq (by rw [length_values, hl]) ?_
  intro row value hv
  have hr : row < right.length := by
    have hlt := (List.getElem?_eq_some_iff.mp hv).1
    rwa [length_values] at hlt
  rw [getElem?_values hr] at hv
  rw [hc row (hl ▸ hr)]
  exact Option.some.inj hv

/-- **Gathering rows** of columns that match. -/
theorem Matches.taken (h : left.Matches right) {rows : List Nat}
    (hrows : ∀ row ∈ rows, row < left.length) : (left.taken rows).Matches (right.taken rows) := by
  refine ⟨wellFormed_taken left rows, h.same.kind, ?_, ?_⟩
  · show left.validity.bind _ = right.validity.bind _
    rw [h.same.validity]
  · refine values_congr (by rw [length_taken, length_taken]) ?_
    intro index hi
    rw [length_taken] at hi
    have hrow := List.getElem?_eq_getElem hi
    have hlt := hrows rows[index] (List.getElem_mem hi)
    rw [h.wellFormed.cell_taken hrow hlt,
      h.wellFormed_right.cell_taken hrow (h.same.length ▸ hlt), h.same.cell]

end Columns

end Column

/-! ### Tests -/

/-- **A test of columns that match** gives the same bits, or ends in one error. -/
theorem Test.bits_of_matches (test : Test) (name : String) {left right : Column}
    (h : left.Matches right) : test.bits name left = test.bits name right :=
  test.bits_of_equal name h.equal

/-! ### Functions -/

namespace TextFunction

/-- A function on texts that is given a column of texts. -/
theorem call_strings (function : TextFunction) {texts : Array String} {validity : Option Bits}
    (h : Column.WellFormed ⟨.string, texts, validity⟩) :
    function.call [⟨.string, texts, validity⟩] =
      .ok ⟨function.kind, texts.map function.apply, validity⟩ := by
  cases validity with
  | none => rfl
  | some bits =>
      obtain ⟨-, hl, ha⟩ := h bits rfl
      have hlength : bits.length =
          Column.length ⟨function.kind, texts.map function.apply, none⟩ := by
        rw [hl, Column.length, Column.length, Array.size_map]
      show Outcome.ofExcept ((Column.withValidity _ bits).mapError Failure.data) = _
      rw [Column.withValidity, if_pos hlength, Column.storedValidity, ha]
      rfl

/-- A function on texts computes on placeholders too, but the nulls are kept. -/
theorem related_call_strings (function : TextFunction) {texts others : Array String}
    {validity : Option Bits}
    (hm : Column.Matches ⟨.string, texts, validity⟩ ⟨.string, others, validity⟩) :
    Outcome.Related Column.Matches (function.call [⟨.string, texts, validity⟩])
      (function.call [⟨.string, others, validity⟩]) := by
  have hl := function.call_strings hm.wellFormed
  have hr := function.call_strings hm.wellFormed_right
  have hlwf : ∀ argument ∈ [Column.mk .string texts validity], argument.WellFormed := by
    simpa using hm.wellFormed
  have hrwf : ∀ argument ∈ [Column.mk .string others validity], argument.WellFormed := by
    simpa using hm.wellFormed_right
  rw [hl, hr]
  refine .ok ⟨Column.wellFormed_of_textFunction hlwf hl, rfl, rfl, Column.values_congr ?_ ?_⟩
  · have hlength : texts.size = others.size := hm.same.length
    simp [Column.length, hlength]
  · intro row _
    obtain ⟨input, hi, hcell⟩ := cell_of_call hl hlwf row
    obtain ⟨input', hi', hcell'⟩ := cell_of_call hr hrwf row
    obtain rfl := List.singleton_inj.mp hi
    obtain rfl := List.singleton_inj.mp hi'
    rw [hcell, hcell', hm.same.cell]

theorem related_call (function : TextFunction) {arguments others : List Column}
    (h : List.Forall₂ Column.Matches arguments others) :
    Outcome.Related Column.Matches (function.call arguments) (function.call others) := by
  cases h with
  | nil => exact .error _
  | @cons left right rest rest' hm hrest =>
      cases hrest with
      | cons _ hrest =>
          -- one argument is expected
          rw [call, call, List.length_cons, List.length_cons, hrest.length_eq]
          · exact .error _
          · simp
          · simp
      | nil =>
          obtain ⟨kind, slots, validity⟩ := left
          obtain ⟨kind', slots', validity'⟩ := right
          obtain rfl : kind = kind' := hm.same.kind
          obtain rfl : validity = validity' := hm.same.validity
          cases kind with
          | string => exact function.related_call_strings hm
          | _ => exact .error _

end TextFunction

namespace ColumnFunction

/-- **A lifted function on cells, or a function on texts.** -/
inductive Lifted (function : ColumnFunction) : Prop where
  | elementwise (f : List Scalar → Scalar) (h : function = elementwise f)
  | text (operation : TextFunction) (h : function = operation.call)

theorem rowOf_of_matches {arguments others : List Column}
    (h : List.Forall₂ Column.Matches arguments others) (row : Nat) :
    Column.rowOf arguments row = Column.rowOf others row := by
  induction h with
  | nil => rfl
  | cons hm _ ih =>
      rw [Column.rowOf, Column.rowOf, List.map_cons, List.map_cons, hm.same.cell]
      exact congrArg _ ih

/-- A lifted function on cells sees the cells alone, so it gives one and the same column. -/
theorem elementwise_of_matches (f : List Scalar → Scalar) {arguments others : List Column}
    (h : List.Forall₂ Column.Matches arguments others) :
    elementwise f arguments = elementwise f others := by
  cases h with
  | nil => rfl
  | cons hm hrest =>
      have hrows := rowOf_of_matches (.cons hm hrest)
      rw [elementwise, elementwise, hm.same.length]
      simp only [hrows]

/-- **Columns that match give columns that match**, or the function fails for one reason. -/
theorem Lifted.related {function : ColumnFunction} (hf : function.Lifted)
    {arguments others : List Column} (h : List.Forall₂ Column.Matches arguments others) :
    Outcome.Related Column.Matches (function arguments) (function others) := by
  cases hf with
  | elementwise f hf =>
      subst hf
      rw [elementwise_of_matches f h]
      refine Outcome.related_of_eq ?_
      intro output ho
      exact .refl (Column.wellFormed_of_elementwise ho)
  | text operation hf =>
      subst hf
      exact operation.related_call h

end ColumnFunction

/-! ### Tables -/

/-- Named columns that match, in one order. -/
def MatchingEntries (left right : List (String × Column)) : Prop :=
  List.Forall₂ (fun entry other => entry.1 = other.1 ∧ entry.2.Matches other.2) left right

theorem MatchingEntries.lookup {left right : List (String × Column)}
    (h : MatchingEntries left right) (name : String) :
    Option.Rel Column.Matches (left.lookup name) (right.lookup name) :=
  Table.rel_lookup h name

namespace Table

/-- **The same cells**: tables with one schema that differ at most in the slots behind nulls. -/
def SameCells (left right : Table) : Prop :=
  List.Forall₂ (fun entry other => entry.1 = other.1 ∧ entry.2.SameCells other.2)
    left.columns right.columns

/-- Tables of columns that match. -/
def Matches (left right : Table) : Prop :=
  MatchingEntries left.columns right.columns

section Tables

variable {left right : Table}

theorem SameCells.matches (h : left.SameCells right) (hl : left.WellFormed) :
    left.Matches right := by
  refine ((List.forall₂_and_left _ _).mpr ⟨hl.columns, h⟩).imp ?_
  rintro entry other ⟨hwf, hn, hs⟩
  exact ⟨hn, hwf, hs⟩

theorem Matches.sameCells (h : left.Matches right) : left.SameCells right := by
  refine h.imp ?_
  rintro entry other ⟨hn, hm⟩
  exact ⟨hn, hm.same⟩

theorem Matches.names (h : left.Matches right) : left.names = right.names := by
  rw [Table.names, Table.names, ← List.forall₂_eq_eq_eq, List.forall₂_map_left_iff,
    List.forall₂_map_right_iff]
  refine h.imp ?_
  rintro entry other ⟨hn, -⟩
  exact hn

theorem Matches.rowCount (h : left.Matches right) : left.rowCount = right.rowCount := by
  rw [Table.rowCount, Table.rowCount]
  rw [Matches] at h
  generalize left.columns = entries, right.columns = others at h ⊢
  cases h with
  | nil => rfl
  | cons hm _ => exact hm.2.same.length

theorem Matches.get? (h : left.Matches right) (name : String) :
    Option.Rel Column.Matches (left.get? name) (right.get? name) :=
  h.lookup name

/-- Adding columns that match. -/
theorem Matches.addColumn (h : left.Matches right) (name : String) {column other : Column}
    (hc : column.Matches other) :
    Outcome.Related Matches (left.addColumn name column) (right.addColumn name other) := by
  have hcontains : left.contains name = right.contains name := by
    rw [Bool.eq_iff_iff, contains_iff, contains_iff, h.names]
  have hempty : left.columns.isEmpty = right.columns.isEmpty := by
    rw [Bool.eq_iff_iff, List.isEmpty_iff_length_eq_zero, List.isEmpty_iff_length_eq_zero,
      List.Forall₂.length_eq h]
  rw [Table.addColumn, Table.addColumn, hcontains, hempty, h.rowCount, hc.same.length]
  split
  · exact .error _
  · split
    · exact .error _
    · exact .ok (List.rel_append h (.cons ⟨rfl, hc⟩ .nil))

/-- **Tables of columns that match** select the same rows. -/
theorem Matches.select_eq (h : left.Matches right) (predicate : Predicate) :
    left.select predicate = right.select predicate :=
  select_of_equal (fun name => (related_column h name).mono fun _ _ => Column.Matches.equal)
    predicate

end Tables

end Table

end RowSieve

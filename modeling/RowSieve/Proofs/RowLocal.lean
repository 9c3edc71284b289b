import RowSieve.Proofs.Column.Values

/-!
# Functions that look at one row at a time

A function on cells that is lifted to columns, and a function on texts, find each cell of their
output in one row of their arguments.  The type of the output is another matter: it may depend on
every row.

* `TextFunction.cell_of_call`, `ColumnFunction.cell_of_elementwise`: the cell in a row.
* `ColumnFunction.RowLocal.exists_onRow`: for both, it is a function of the cells of that row.
-/

namespace RowSieve

/-! ### Functions on texts -/

namespace TextFunction

/-- The result for a cell; null where there is no text. -/
def onCell (function : TextFunction) : Scalar → Scalar
  | .string text => .ofSlot function.kind (function.apply text)
  | _ => .null

theorem strings?_eq_some {column : Column} {texts : Array String}
    (h : column.strings? = some texts) :
    ∃ validity, column = ⟨.string, texts, validity⟩ := by
  unfold Column.strings? at h
  split at h
  next slots validity => exact ⟨validity, by rw [Option.some.inj h]⟩
  next => cases h

/-- What a function on texts gives: the same rows are marked, and the slots are mapped. -/
theorem call_eq_ok {function : TextFunction} {arguments : List Column} {output : Column}
    (h : function.call arguments = .ok output) (ha : ∀ argument ∈ arguments, argument.WellFormed) :
    ∃ texts validity, arguments = [⟨.string, texts, validity⟩] ∧
      output = ⟨function.kind, texts.map function.apply, validity⟩ := by
  unfold call at h
  split at h
  next input =>
    split at h
    next => cases h
    next texts hs =>
      obtain ⟨validity, rfl⟩ := strings?_eq_some hs
      refine ⟨texts, validity, rfl, ?_⟩
      cases validity with
      | none => exact (Except.ok.inj h).symm
      | some bits =>
          dsimp only at h
          rw [Outcome.ofExcept_eq_ok, Outcome.exceptMapError_eq_ok] at h
          obtain ⟨-, rfl⟩ := Column.withValidity_eq_ok h
          -- the validity marks a null, so it is stored again
          have hstored := (ha _ (List.mem_singleton_self _) bits rfl).2.2
          rw [Column.storedValidity, hstored]
          rfl
  next => cases h

/-- **The cell in a row** of what a function on texts gives. -/
theorem cell_of_call {function : TextFunction} {arguments : List Column} {output : Column}
    (h : function.call arguments = .ok output) (ha : ∀ argument ∈ arguments, argument.WellFormed)
    (row : Nat) :
    ∃ input, arguments = [input] ∧ output.cell row = function.onCell (input.cell row) := by
  have hwf := Column.wellFormed_of_textFunction ha h
  obtain ⟨texts, validity, rfl, rfl⟩ := call_eq_ok h ha
  refine ⟨_, rfl, ?_⟩
  have hinput := ha _ (List.mem_singleton_self _)
  cases hs : texts[row]? with
  | none =>
      have hmapped : (texts.map function.apply)[row]? = none := by simp [hs]
      rw [Column.cell, Column.readCell_of_none hmapped, Column.cell, Column.readCell_of_none hs]
      rfl
  | some text =>
      have hmapped : (texts.map function.apply)[row]? = some (function.apply text) := by simp [hs]
      rw [Column.cell_of_some hwf hmapped, Column.cell_of_some hinput hs]
      show (if Option.elim validity true _ then _ else _) =
        function.onCell (if Option.elim validity true _ then _ else _)
      split <;> rfl

end TextFunction

namespace ColumnFunction

/-! ### Lifted functions -/

/-- **The cell in a row** of what a lifted function gives. -/
theorem cell_of_elementwise {f : List Scalar → Scalar} {arguments : List Column} {output : Column}
    (h : elementwise f arguments = .ok output) {row : Nat} (hr : row < output.length) :
    output.cell row = f (Column.rowOf arguments row) := by
  unfold elementwise at h
  split at h
  next => cases h
  next first rest =>
    rw [Outcome.ofExcept_eq_ok, Outcome.exceptMapError_eq_ok] at h
    have hvalues := Column.values_of_infer h
    have hlen : output.length = first.length := by
      rw [← Column.length_values, hvalues, List.length_map, List.length_range]
    have hcell := Column.getElem?_values hr
    rw [hvalues, List.getElem?_map, List.getElem?_range (hlen ▸ hr)] at hcell
    exact (Option.some.inj hcell).symm

/-! ### Both -/

/-- The function gives what another one gives, or nothing. -/
def Restricts (function lifted : ColumnFunction) : Prop :=
  ∀ arguments output, function arguments = .ok output → lifted arguments = .ok output

/-- **Functions that look at one row at a time**: a lifted function on cells, which may give up on
some of them, or a function on texts. -/
inductive RowLocal (function : ColumnFunction) : Prop where
  | elementwise (f : List Scalar → Scalar) (h : function.Restricts (elementwise f))
  | text (operation : TextFunction) (h : function = operation.call)

/-- **The cells of a row decide** the cell of the output in that row. -/
theorem RowLocal.exists_onRow {function : ColumnFunction} (h : function.RowLocal) :
    ∃ f : List Scalar → Scalar, ∀ arguments output, function arguments = .ok output →
      (∀ argument ∈ arguments, argument.WellFormed) → ∀ row < output.length,
        output.cell row = f (Column.rowOf arguments row) := by
  cases h with
  | elementwise f h =>
      exact ⟨f, fun arguments output ho _ row => cell_of_elementwise (h arguments output ho)⟩
  | text operation h =>
      subst h
      refine ⟨fun cells => operation.onCell (cells.headD .null), fun _ _ ho ha row _ => ?_⟩
      obtain ⟨input, rfl, hcell⟩ := TextFunction.cell_of_call ho ha row
      exact hcell

end ColumnFunction

end RowSieve

import RowSieve.Proofs.Column.SameCells
import RowSieve.Proofs.Text.Characters
import RowSieve.Proofs.View.Reports

/-!
# Functions on texts, and the columns they compute

A function on texts keeps the rows and the nulls of its column, and says the same of a text in every
row.

* `TextFunction.exists_call_iff`: what it is applied to.
* `TextFunction.mapsCells_of_call`: what it makes of the cells.
* `TextFunction.rows_and_characters`: both, what it says of a text, and what a view says of its
  columns.
-/

namespace RowSieve.TextFunction

variable {function : TextFunction} {arguments : List Column}

/-! ### Columns -/

/-- **The output has the rows of the input**: null where the input is null, and otherwise the result
for the text. -/
structure MapsCells (function : TextFunction) (input output : Column) : Prop where
  kind : output.kind = function.kind
  length : output.length = input.length
  null_iff : ∀ row, output.cell row = .null ↔ input.cell row = .null
  text : ∀ row, input.cell row ≠ .null → ∃ text, input.cell row = .string text ∧
    output.cell row = .ofSlot function.kind (function.apply text)

/-- **One column of texts** is what a function on texts takes. -/
theorem exists_call_iff (ha : ∀ argument ∈ arguments, argument.WellFormed) :
    (∃ output, function.call arguments = .ok output) ↔
      ∃ input, arguments = [input] ∧ input.kind = .string := by
  constructor
  · rintro ⟨output, ho⟩
    obtain ⟨texts, validity, rfl, -⟩ := call_eq_ok ho ha
    exact ⟨_, rfl, rfl⟩
  · rintro ⟨⟨kind, texts, validity⟩, rfl, hk⟩
    obtain rfl : kind = .string := hk
    exact ⟨_, function.call_strings (ha _ (List.mem_singleton_self _))⟩

/-- A cell of a column of texts. -/
theorem exists_text {texts : Array String} {validity : Option Bits}
    (h : Column.WellFormed ⟨.string, texts, validity⟩) {row : Nat}
    (hn : Column.cell ⟨.string, texts, validity⟩ row ≠ .null) :
    ∃ text, Column.cell ⟨.string, texts, validity⟩ row = .string text := by
  cases hs : texts[row]? with
  | none => exact absurd (by rw [Column.cell, Column.readCell_of_none hs]) hn
  | some text =>
      rw [Column.cell_of_some h hs] at hn ⊢
      split
      next => exact ⟨text, rfl⟩
      next hm => exact absurd (if_neg hm) hn

/-- **What a function on texts makes of the cells.** -/
theorem mapsCells_of_call {output : Column} (ha : ∀ argument ∈ arguments, argument.WellFormed)
    (h : function.call arguments = .ok output) :
    ∃ input, arguments = [input] ∧ function.MapsCells input output := by
  have hcell : ∀ row, ∃ input, arguments = [input] ∧
      output.cell row = function.onCell (input.cell row) := cell_of_call h ha
  obtain ⟨texts, validity, rfl, rfl⟩ := call_eq_ok h ha
  have hwf := ha _ (List.mem_singleton_self _)
  have hmapped : ∀ row, Column.cell ⟨function.kind, texts.map function.apply, validity⟩ row =
      function.onCell (Column.cell ⟨.string, texts, validity⟩ row) := by
    intro row
    obtain ⟨input, hi, hcell⟩ := hcell row
    rwa [List.singleton_inj.mp hi]
  refine ⟨_, rfl, rfl, by simp [Column.length], fun row => ?_, fun row hn => ?_⟩
  · rw [hmapped]
    by_cases hn : Column.cell ⟨.string, texts, validity⟩ row = .null
    · simp [hn, onCell]
    · obtain ⟨text, ht⟩ := exists_text hwf hn
      have hslot : Scalar.ofSlot function.kind (function.apply text) ≠ .null := fun he =>
        absurd (Column.isNull_ofSlot function.kind (function.apply text)) (by
          simp [he, Scalar.isNull])
      simp [ht, onCell, hslot]
  · obtain ⟨text, ht⟩ := exists_text hwf hn
    exact ⟨text, ht, by rw [hmapped, ht, onCell]⟩

/-- A function on texts keeps the rows. -/
theorem keepsRows_call (function : TextFunction) : function.call.KeepsRows := by
  intro arguments rows output ha ho
  obtain ⟨input, rfl, hcells⟩ := mapsCells_of_call (fun argument hm => (ha argument hm).1) ho
  rw [hcells.length]
  exact (ha input (List.mem_singleton_self input)).2

/-! ### Views -/

/-- **Rows and characters.**  A function on texts takes just one column of texts, and keeps its rows
and its nulls; as the function of a virtual column it is never reported for the length of the
column.  Of any text that fits in memory the functions tell one story: how many characters it has,
its parts, and where a pattern occurs in it. -/
theorem rows_and_characters (function : TextFunction) :
    (∀ arguments : List Column, (∀ argument ∈ arguments, argument.Built) →
      ((∃ output, function.call arguments = .ok output) ↔
        ∃ input, arguments = [input] ∧ input.kind = .string) ∧
      ∀ output, function.call arguments = .ok output →
        ∃ input, arguments = [input] ∧ function.MapsCells input output) ∧
    (∀ text, Text.InMemory text → Tells text) ∧
    ∀ view : View, view.Reachable → ∀ name column, view.virtualColumn? name = some column →
      view.functions.get? column.function = some function.call →
        ∀ called expected actual, ¬ view.Reports (.arityMismatch name called expected actual) := by
  refine ⟨fun arguments hb => ?_, fun text => tells, fun view hv name column hc hf => ?_⟩
  · have ha : ∀ argument ∈ arguments, argument.WellFormed := fun argument hm =>
      (hb argument hm).wellFormed
    exact ⟨exists_call_iff ha, fun output => mapsCells_of_call ha⟩
  · exact hv.not_reports_arity hc hf function.keepsRows_call

/-- A character of two bytes is found behind one of a single byte, and the lengths of capitals are
never reported for their number. -/
theorem rows_and_characters_accent :
    (∀ argument ∈ [Column.ofStrings #["dé"]], argument.Built) ∧
      (∃ output, length.call [.ofStrings #["dé"]] = .ok output) ∧
      Text.InMemory "dé" ∧ (found "é" "dé").toInt = 1 ∧ View.capitals.Reachable ∧
      ∀ called expected actual,
        ¬ View.capitals.Reports (.arityMismatch "length" called expected actual) := by
  have hbuilt : ∀ argument ∈ [Column.ofStrings #["dé"]], argument.Built := by
    simpa using Column.Built.ofStrings #["dé"]
  have hmemory : Text.InMemory "dé" := by decide +kernel
  have hleast : IsLeast {start | OccursAt "é" "dé" start} 1 := by
    have hone : OccursAt "é" "dé" 1 := by decide +kernel
    have hzero : ¬ OccursAt "é" "dé" 0 := by decide +kernel
    exact ⟨hone, fun start hs => Nat.one_le_iff_ne_zero.mpr fun he => hzero (he ▸ hs)⟩
  have hlength : View.capitals.virtualColumn? "length" =
      some ⟨"length", "str_len", ["capitals"]⟩ :=
    View.reachable_capitals.invariant.virtualColumn?_eq_some_iff.mpr ⟨by decide, rfl⟩
  obtain ⟨hcalls, htells, hviews⟩ := rows_and_characters .length
  exact ⟨hbuilt, (hcalls _ hbuilt).1.mpr ⟨_, rfl, rfl⟩, hmemory,
    ((htells "dé" hmemory).found_eq_iff "é" 1).mpr hleast, View.reachable_capitals,
    hviews _ View.reachable_capitals "length" _ hlength rfl⟩

end RowSieve.TextFunction

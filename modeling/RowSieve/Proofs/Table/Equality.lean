import RowSieve.Proofs.Column.Inference
import RowSieve.Proofs.Column.SameCells
import RowSieve.Proofs.Predicate.Safety

/-!
# Equality is seen through nowhere

Equality of columns takes the two zeros for one number, all that is not a number for one, and does
not look behind nulls.  What can be done with columns respects it: equal columns have equal rows
gathered from them, become equal under functions on texts, and as the columns of tables satisfy the
same predicates, row by row, or are refused for the same reason.

* `Column.Equal.values_of_string`: equal columns of texts have the same values.
* `TextFunction.call_of_equal`: functions on texts of equal columns.
* `Table.Equal.select`: predicates over tables of equal columns.
* `Column.equality_is_congruence`: all this, for the columns and tables that can be built.
-/

namespace RowSieve

/-! ### Functions on texts -/

/-- **Equal columns of texts** have the same values: only numbers have several spellings. -/
theorem Column.Equal.values_of_string {left right : Column} (h : left.Equal right)
    (hk : left.kind = .string) : left.values = right.values := by
  refine values_congr h.length fun row hr => ?_
  rcases Scalar.eq_or_floats (h.canonical_cell hr) with heq | ⟨x, y, hx, -, -⟩
  · exact heq
  · have hm : Scalar.float x ∈ left.values := hx ▸ List.mem_of_getElem? (getElem?_values hr)
    cases hk ▸ h.wellFormed.kind?_of_mem hm rfl

/-- Equal columns of texts differ at most behind nulls. -/
theorem Column.Equal.matches {left right : Column} (h : left.Equal right)
    (hk : left.kind = .string) : left.Matches right :=
  ⟨h.wellFormed, h.kind, h.validity, h.values_of_string hk⟩

/-- A function on texts refuses a column of another type, by name. -/
theorem TextFunction.call_of_kind (function : TextFunction) {column : Column}
    (hk : column.kind ≠ .string) :
    function.call [column] =
      .error (.error (.text
        s!"{function.name} expects a string column, got {column.kind.name}")) := by
  obtain ⟨kind, slots, validity⟩ := column
  cases kind with
  | string => exact absurd rfl hk
  | _ => rfl

/-- **A function on texts** gives equal columns of equal columns, or refuses both for one reason. -/
theorem TextFunction.call_of_equal (function : TextFunction) {left right : Column}
    (h : left.Equal right) :
    (∃ output other, function.call [left] = .ok output ∧ function.call [right] = .ok other ∧
        output.Equal other) ∨
      ∃ failure, function.call [left] = .error (.error failure) ∧
        function.call [right] = .error (.error failure) := by
  by_cases hk : left.kind = .string
  · left
    have hrelated := function.related_call (.cons (h.matches hk) .nil)
    obtain ⟨kind, texts, validity⟩ := left
    obtain rfl : kind = .string := hk
    rw [function.call_strings h.wellFormed] at hrelated ⊢
    generalize function.call [right] = result at hrelated ⊢
    cases hrelated with
    | ok hm => exact ⟨_, _, rfl, rfl, hm.equal⟩
  · right
    refine ⟨_, function.call_of_kind hk, ?_⟩
    rw [function.call_of_kind (h.kind ▸ hk), h.kind]

/-! ### Tables -/

/-- **Equal tables**: the same names in the same order, and equal columns under them. -/
def Table.Equal (left right : Table) : Prop :=
  List.Forall₂ (fun entry other => entry.1 = other.1 ∧ (entry.2 == other.2) = true)
    left.columns right.columns

theorem Table.Equal.column {left right : Table} (h : left.Equal right) (hl : left.WellFormed)
    (hr : right.WellFormed) (name : String) :
    Outcome.Related Column.Equal (left.column name) (right.column name) := by
  have hcolumn := related_column (r := fun column other => (column == other) = true) h name
  generalize hf : left.column name = found, ho : right.column name = other at hcolumn ⊢
  cases hcolumn with
  | ok heq =>
      have hwf := (hl.wellFormed_of_get? (column_eq_ok.mp hf)).1
      have hwf' := (hr.wellFormed_of_get? (column_eq_ok.mp ho)).1
      exact .ok ⟨hwf, hwf', heq⟩
  | error error => exact .error error

/-- **Equal tables** select the same rows, or refuse a predicate with one error. -/
theorem Table.Equal.select {left right : Table} (h : left.Equal right) (hl : left.WellFormed)
    (hr : right.WellFormed) (predicate : Predicate) :
    (∃ mask, left.select predicate = .ok mask ∧ right.select predicate = .ok mask) ∨
      ∃ error, left.select predicate = .error (.error error) ∧
        right.select predicate = .error (.error error) := by
  rw [← select_of_equal (h.column hl hr) predicate]
  have hcalm := calm_select hl predicate
  rcases hs : left.select predicate with (error | broken) | mask
  · exact .inr ⟨error, rfl, rfl⟩
  · exact absurd hs (hcalm broken)
  · exact .inl ⟨mask, rfl, rfl⟩

/-! ### All together -/

/-- **Equality is a congruence.**  It is an equivalence relation on columns.  Tables of equal
columns under the same names select the same rows by any predicate, or refuse it with one error;
and of equal columns the same rows are equal columns, and every function on texts gives equal
columns or refuses both for one reason. -/
theorem Column.equality_is_congruence :
    (Equivalence fun left right : Column => (left == right) = true) ∧
      (∀ left right : Table, left.Built → right.Built → left.Equal right → ∀ predicate,
        (∃ mask, left.select predicate = .ok mask ∧ right.select predicate = .ok mask) ∨
          ∃ error, left.select predicate = .error (.error error) ∧
            right.select predicate = .error (.error error)) ∧
      ∀ left right : Column, left.Built → right.Built → (left == right) = true →
        (∀ rows : List Nat, (∀ row ∈ rows, row < left.length) →
          ∃ gathered other, left.take rows = .ok gathered ∧ right.take rows = .ok other ∧
            (gathered == other) = true) ∧
        ∀ function : TextFunction,
          (∃ output other, function.call [left] = .ok output ∧ function.call [right] = .ok other ∧
            (output == other) = true) ∨
          ∃ failure, function.call [left] = .error (.error failure) ∧
            function.call [right] = .error (.error failure) := by
  refine ⟨beq_equivalence, fun left right hl hr h => h.select hl.wellFormed hr.wellFormed, ?_⟩
  intro left right hl hr heq
  have h : left.Equal right := ⟨hl.wellFormed, hr.wellFormed, heq⟩
  refine ⟨fun rows hrows => ?_, fun function => ?_⟩
  · have hrows' : ∀ row ∈ rows, row < right.length := fun row hr => h.length ▸ hrows row hr
    exact ⟨_, _, take_eq h.wellFormed hrows, take_eq h.wellFormed_right hrows', (h.taken hrows).beq⟩
  · refine (function.call_of_equal h).imp_left ?_
    rintro ⟨output, other, ho, ho', hequal⟩
    exact ⟨output, other, ho, ho', hequal.beq⟩

/-- The negative zero, what is not a number, and a null. -/
def Column.spelled : Column :=
  ⟨.float, #[⟨0x8000000000000000⟩, ⟨0x7FF8000000000000⟩, ⟨0⟩], some (.ofList [true, true, false])⟩

/-- Zero, what is not a number in another spelling, and a null before another number. -/
def Column.respelled : Column :=
  ⟨.float, #[⟨0⟩, ⟨0xFFF0000000000001⟩, ⟨0x3FF0000000000000⟩], some (.ofList [true, true, false])⟩

theorem Column.built_spelled : spelled.Built ∧ respelled.Built := by
  have hbuilt : ∀ slots : Array Binary64, slots.size = 3 →
      Built ⟨.float, slots, some (.ofList [true, true, false])⟩ := fun slots hs =>
    .withValidity (.ofFloats slots) (.ofList [true, true, false]) (if_pos hs.symm)
  exact ⟨hbuilt _ rfl, hbuilt _ rfl⟩

/-- No two slots are the same, and yet the columns are equal: tables of them select the same rows,
and the same rows of them are equal. -/
theorem Column.equality_respelled :
    spelled.Built ∧ respelled.Built ∧ (spelled == respelled) = true ∧
      (Table.mk [("x", respelled)]).select (.not (.leaf "x" (.compare .lt (.int 0)))) =
        (Table.mk [("x", spelled)]).select (.not (.leaf "x" (.compare .lt (.int 0)))) ∧
      ∃ gathered other, spelled.take [2, 0] = .ok gathered ∧ respelled.take [2, 0] = .ok other ∧
        (gathered == other) = true := by
  obtain ⟨hs, hr⟩ := built_spelled
  have heq : (spelled == respelled) = true := by decide +kernel
  have ht : ∀ column : Column, column.Built → (Table.mk [("x", column)]).Built :=
    fun column hc => .addColumn .empty hc rfl
  obtain ⟨-, htables, hcolumns⟩ := equality_is_congruence
  refine ⟨hs, hr, heq, ?_, (hcolumns _ _ hs hr heq).1 [2, 0] (by decide)⟩
  rcases htables _ _ (ht _ hs) (ht _ hr) (.cons ⟨rfl, heq⟩ .nil) _ with
    ⟨mask, hl, hr⟩ | ⟨error, hl, hr⟩
  · rw [hl, hr]
  · rw [hl, hr]

end RowSieve

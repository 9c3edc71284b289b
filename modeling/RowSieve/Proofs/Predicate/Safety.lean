import RowSieve.Proofs.Bits.InPlace
import RowSieve.Proofs.Predicate.Agreement

/-!
# Predicates never end in a fault

The columns that a predicate reads are equally long, and so are the bit strings that it combines;
validities have a bit for every row.  So the only way for a predicate to give no bits is an error.

* `Test.calm_bits`: a test of a well-formed column.
* `Predicate.calm_evaluate`: a predicate, wherever its columns come from.
* `Table.calm_select`: the selection from a table.
-/

namespace RowSieve

open Outcome

/-- **A test of a well-formed column** does not end in a fault. -/
theorem Test.calm_bits (test : Test) (name : String) {column : Column} (h : column.WellFormed) :
    Calm (test.bits name column) := by
  obtain ⟨bits, -, hbits, -⟩ | ⟨cause, hcause, -⟩ :=
    (test.bits_of_kind_eq name h h rfl).eq_ok_or_eq_error
  · exact calm_of_eq_ok ⟨bits, hbits⟩
  · rw [hcause]
    exact calm_error cause

namespace Predicate

section Evaluate

variable {ε : Type} {lookup : String → Outcome ε Column}
  {settle : Outcome DataError Bits → Outcome ε Bits} {rows : Nat}

/-- Two sides are combined without a fault, since their bit strings are equally long. -/
theorem calm_combined (hsettle : ∀ outcome bits, settle outcome = .ok bits → outcome = .ok bits)
    (hcalm : ∀ outcome, Calm outcome → Calm (settle outcome))
    (hlookup : ∀ name column, lookup name = .ok column →
      column.WellFormed ∧ column.length = rows) {left right : Predicate}
    (hleft : Calm (left.evaluate lookup settle)) (hright : Calm (right.evaluate lookup settle))
    {combine : Bits → Bits → Except Fault Bits}
    (hcombine : ∀ leftBits rightBits, leftBits.WellFormed → rightBits.WellFormed →
      leftBits.length = rightBits.length → ∃ bits, combine leftBits rightBits = .ok bits) :
    Calm (left.evaluate lookup settle >>= fun leftBits =>
      right.evaluate lookup settle >>= fun rightBits =>
        settle (ofFaulty (combine leftBits rightBits))) := by
  refine hleft.bind fun leftBits hl => hright.bind fun rightBits hr => hcalm _ ?_
  obtain ⟨hlwf, hll, -⟩ := evaluate_eq_ok hsettle hlookup hl
  obtain ⟨hrwf, hrl, -⟩ := evaluate_eq_ok hsettle hlookup hr
  obtain ⟨bits, hbits⟩ := hcombine leftBits rightBits hlwf hrwf (hll.trans hrl.symm)
  exact calm_of_eq_ok ⟨bits, ofFaulty_eq_ok.mpr hbits⟩

/-- **A predicate** does not end in a fault, if what provides it with columns does not, and these
are equally long. -/
theorem calm_evaluate (hsettle : ∀ outcome bits, settle outcome = .ok bits → outcome = .ok bits)
    (hcalm : ∀ outcome, Calm outcome → Calm (settle outcome))
    (hlookup : ∀ name column, lookup name = .ok column →
      column.WellFormed ∧ column.length = rows) {predicate : Predicate}
    (hl : ∀ name ∈ predicate.columns, Calm (lookup name)) :
    Calm (predicate.evaluate lookup settle) := by
  induction predicate with
  | leaf name test =>
      refine (hl name (by simp)).bind fun column hc => hcalm _ ?_
      exact test.calm_bits name (hlookup name column hc).1
  | and left right ihl ihr =>
      simp only [mem_columns_and] at hl
      refine calm_combined hsettle hcalm hlookup (ihl fun name hn => hl name (.inl hn))
        (ihr fun name hn => hl name (.inr hn)) fun leftBits rightBits hlwf hrwf hlength => ?_
      obtain ⟨both, hand, -⟩ := Bits.and_eq_ok hlwf hrwf hlength
      exact ⟨both, hand⟩
  | or left right ihl ihr =>
      simp only [mem_columns_or] at hl
      refine calm_combined hsettle hcalm hlookup (ihl fun name hn => hl name (.inl hn))
        (ihr fun name hn => hl name (.inr hn)) fun leftBits rightBits hlwf hrwf hlength => ?_
      obtain ⟨either, hor, -⟩ := Bits.or_eq_ok hlwf hrwf hlength
      exact ⟨either, hor⟩
  | not inner ih => exact (ih hl).bind fun bits _ => calm_ok bits.not

end Evaluate

end Predicate

/-- **The selection from a table** does not end in a fault. -/
theorem Table.calm_select {table : Table} (h : table.WellFormed) (predicate : Predicate) :
    Calm (table.select predicate) := by
  refine Calm.map ?_ Mask.mk
  exact Predicate.calm_evaluate (fun _ _ => id) (fun _ => id)
    (fun _ _ => h.wellFormed_of_column) fun name _ => calm_ofExcept (table.column name)

end RowSieve

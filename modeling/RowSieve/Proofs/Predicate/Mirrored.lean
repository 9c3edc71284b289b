import RowSieve.Proofs.Predicate

/-!
# Integers against numbers, and numbers against integers

An integer and a floating-point number compare by their exact values, whichever of the two is in the
column and whichever is the literal.

* `Binary64.compareInt?_eq_compare`: the order found is that of the exact values.
* `CompareOp.holdsOf_mirror`: a comparison of two values is the mirrored one of the values swapped.
* `Binary64.comparison_exact`: both ways to compare select the same rows, those for which the
  comparison of the exact values holds.
-/

namespace RowSieve

namespace CompareOp

/-- The comparison that holds of two values when this one holds of them swapped. -/
def mirror : CompareOp → CompareOp
  | .eq => .eq
  | .ne => .ne
  | .lt => .gt
  | .lte => .gte
  | .gt => .lt
  | .gte => .lte

theorem holdsOf_mirror (op : CompareOp) (order : Option Ordering) :
    op.mirror.holdsOf (order.map Ordering.swap) = op.holdsOf order := by
  cases order with
  | none => cases op <;> rfl
  | some order => cases op <;> cases order <;> rfl

end CompareOp

/-- The one row of a table with a single column, put to a comparison. -/
theorem Table.select_compare_single (kind : Kind) {op : CompareOp} {literal : Literal}
    {holds : kind.Slot → Bool} (h : op.slotTest? kind literal = some holds)
    (hk : kind ≠ .boolean) (name : String) (slot : kind.Slot) :
    Table.select ⟨[(name, ⟨kind, #[slot], none⟩)]⟩ (.leaf name (.compare op literal)) =
      .ok (.ofList [holds slot]) := by
  have hcolumn : Table.column ⟨[(name, ⟨kind, #[slot], none⟩)]⟩ name =
      .ok ⟨kind, #[slot], none⟩ := by
    rw [Table.column_eq_ok, Table.get?]
    simp
  have hbits : Test.compareBits op literal name ⟨kind, #[slot], none⟩ =
      .ok (.ofList [holds slot]) := by
    rw [Test.compareBits, if_neg (by simp [hk])]
    simp only [h]
    rfl
  rw [Table.select, Predicate.evaluate, hcolumn]
  exact congrArg (Except.map Mask.mk) hbits

namespace Binary64

/-- **The order found** for an integer and a number is that of their exact values. -/
theorem compareInt?_eq_compare (a : Int64) (x : Binary64) :
    compareInt? a x = x.value?.map (compare (Extended.ofInt a.toInt)) := by
  cases hn : x.isNaN with
  | true =>
      rw [value?_eq_none_iff.mpr hn, compareInt?, if_pos hn]
      rfl
  | false =>
      obtain ⟨order, ho, right, hr, hlt, heq⟩ := compareInt?_eq a hn
      rw [ho, hr, CompareOp.eq_compare hlt heq]
      rfl

/-- **Integers and numbers compare exactly.**  The order found is that of the exact values, and there
is none exactly if the number is not one.  A column of the integer compared with the number, and a
column of the number under the mirrored comparison with the integer, have the same bit: the
comparison of the exact values, where what is not a number only differs. -/
theorem comparison_exact (a : Int64) (x : Binary64) :
    compareInt? a x = x.value?.map (compare (Extended.ofInt a.toInt)) ∧
      (compareInt? a x = none ↔ x.isNaN = true) ∧
      ∀ (op : CompareOp) (name : String), ∃ bit,
        Table.select ⟨[(name, .ofInts #[a])]⟩ (.leaf name (.compare op (.float x))) =
            .ok (.ofList [bit]) ∧
          Table.select ⟨[(name, .ofFloats #[x])]⟩ (.leaf name (.compare op.mirror (.int a))) =
            .ok (.ofList [bit]) ∧
          (bit = true ↔ op.RelatesNumbers (some (Extended.ofInt a.toInt)) x.value?) := by
  refine ⟨compareInt?_eq_compare a x, ?_, fun op name => ⟨op.holdsOf (compareInt? a x), ?_⟩⟩
  · rw [compareInt?_eq_compare, Option.map_eq_none_iff, value?_eq_none_iff]
  · have hint : op.slotTest? .int (.float x) = some fun slot => op.holdsOf (compareInt? slot x) :=
      rfl
    have hfloat : op.mirror.slotTest? .float (.int a) =
        some fun slot => op.mirror.holdsOf ((compareInt? a slot).map Ordering.swap) := rfl
    refine ⟨Table.select_compare_single .int hint Kind.noConfusion name a, ?_,
      op.holdsOf_compareInt? a x⟩
    rw [← op.holdsOf_mirror]
    exact Table.select_compare_single .float hfloat Kind.noConfusion name x

/-- `2⁵³ + 1` comes after `2⁵³`, and `-3` before `-2.5`; `2⁶³` comes after all integers. -/
example : compareInt? 9007199254740993 ⟨0x4340000000000000⟩ = some .gt ∧
    compareInt? (-3) ⟨0xC004000000000000⟩ = some .lt ∧
    compareInt? Int64.maxValue ⟨0x43E0000000000000⟩ = some .lt := by
  decide +kernel

end Binary64

end RowSieve

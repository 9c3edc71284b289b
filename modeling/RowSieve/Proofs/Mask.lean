import RowSieve.Mask
import RowSieve.Proofs.Bits
import RowSieve.Proofs.Outcome

/-!
# Masks stand for sets of rows

`Mask.Picks` says which rows a mask over so many rows selects, and nothing of words or counts.

* `Mask.Picks.unique`: a mask is determined by the rows that it selects.
* `Mask.Picks.and`: the rows selected by both of two masks.
-/

namespace RowSieve.Mask

/-- Two masks of one length are combined when their bits are. -/
theorem combine_eq_ok {op : Bits → Bits → Except Fault Bits} {left right : Mask} {bits : Bits}
    (hlen : left.length = right.length) (h : op left.bits right.bits = .ok bits) :
    combine op left right = .ok ⟨bits⟩ := by
  rw [combine, if_pos hlen, h]
  rfl

/-- The mask over so many rows selects exactly those that satisfy a condition. -/
structure Picks (mask : Mask) (total : Nat) (chosen : Nat → Prop) : Prop where
  wellFormed : mask.bits.WellFormed
  length : mask.length = total
  mem_rows : ∀ row, row ∈ mask.rows ↔ chosen row

namespace Picks

variable {left right mask : Mask} {total : Nat} {chosen other : Nat → Prop}

theorem congr (h : mask.Picks total chosen) (hc : ∀ row, chosen row ↔ other row) :
    mask.Picks total other :=
  { h with mem_rows := fun row => (h.mem_rows row).trans (hc row) }

/-- **A mask is determined by the rows that it selects.** -/
theorem unique (hl : left.Picks total chosen) (hr : right.Picks total chosen) : left = right := by
  have hbits : left.bits = right.bits :=
    hl.wellFormed.ext_indices hr.wellFormed (hl.length.trans hr.length.symm) fun row =>
      (hl.mem_rows row).trans (hr.mem_rows row).symm
  cases left; cases right
  exact congrArg Mask.mk hbits

/-- **The rows selected by both masks.** -/
theorem and (hl : left.Picks total chosen) (hr : right.Picks total other) :
    ∃ both, left.and right = .ok both ∧ both.Picks total fun row => chosen row ∧ other row := by
  have hlen : left.length = right.length := hl.length.trans hr.length.symm
  obtain ⟨bits, hand, hwf, hblen, htest, -⟩ := Bits.and_eq_ok hl.wellFormed hr.wellFormed hlen
  refine ⟨⟨bits⟩, combine_eq_ok hlen hand, hwf, hblen.trans hl.length, fun row => ?_⟩
  rw [← hl.mem_rows, ← hr.mem_rows]
  simp only [rows, hwf.mem_indices, hl.wellFormed.mem_indices, hr.wellFormed.mem_indices, htest,
    hblen, show left.bits.length = right.bits.length from hlen, Bool.and_eq_true]
  tauto

end Picks

end RowSieve.Mask

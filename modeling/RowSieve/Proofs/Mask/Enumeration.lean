import RowSieve.Proofs.Mask

/-!
# The indices of the ones

What the enumeration of the ones of a bit string is good for, and of the selected rows of a mask.

* `Mask.isSelected_iff`: a row is selected when it is among the rows, wherever it lies.
* `Bits.WellFormed.raise_indices`: a bit string is rebuilt from its ones.
* `Bits.Built.enumeration`: the calls of the cursor end, and yield the indices of the ones, ascending
  and as many as are counted; so it is with the rows of a mask.
-/

namespace RowSieve

theorem Mask.isSelected_iff {mask : Mask} (h : mask.bits.WellFormed) (row : Nat) :
    mask.isSelected row = true ↔ row ∈ mask.rows := by
  rw [isSelected, rows, h.mem_indices, Bool.and_eq_true, decide_eq_true_iff]
  rfl

namespace Bits

/-- **A bit string is rebuilt from its ones**, out of zeros. -/
theorem WellFormed.raise_indices {bits : Bits} (h : bits.WellFormed) :
    (allClear bits.length).raise bits.indices = .ok bits := by
  obtain ⟨raised, hraise, hwf, hl, hmem⟩ := (wellFormed_allClear bits.length).raise_eq_ok
    fun index hi => (h.mem_indices.mp hi).1
  -- both have the same ones
  rw [hraise, hwf.ext_indices h hl fun other => ?_]
  rw [hmem, indices_allClear, or_iff_left List.not_mem_nil]

/-- **The enumeration of the ones.**  The calls of the cursor end, having yielded the indices of the
ones, ascending and as many as are counted; the rows of a mask are the selected ones, wherever a row
lies; and raising the bits yielded, out of zeros, rebuilds the bit string. -/
theorem Built.enumeration {bits : Bits} (h : bits.Built) :
    (∀ yielded, (Cursor.start bits.words).Yields yielded ↔ yielded = bits.indices) ∧
      (∀ index, index ∈ bits.indices ↔ index < bits.length ∧ bits.get index = .ok true) ∧
      bits.indices.Pairwise (· < ·) ∧ bits.indices.length = bits.count ∧
      (∀ mask : Mask, mask.bits = bits → mask.rows.Pairwise (· < ·) ∧
        mask.rows.length = mask.count ∧
          ∀ row, mask.isSelected row = true ↔ row ∈ mask.rows) ∧
      (Bits.allClear bits.length).raise bits.indices = .ok bits := by
  have hwf := h.wellFormed
  have hcalls := (Cursor.start bits.words).yields_toList
  refine ⟨fun yielded => ⟨fun hy => hy.unique hcalls, ?_⟩, fun index => ?_, hwf.pairwise_indices,
    hwf.length_indices, ?_, hwf.raise_indices⟩
  · rintro rfl
    exact hcalls
  · rw [hwf.mem_indices, get_eq_ok, and_self_left]
  · rintro ⟨_⟩ rfl
    exact ⟨hwf.pairwise_indices, hwf.length_indices, Mask.isSelected_iff hwf⟩

/-- Two ones, with a word of zeros between them and another behind them. -/
def scattered : Bits :=
  ⟨#[8, 0, 4, 0], 200, 2⟩

theorem enumeration_scattered :
    scattered.Built ∧ (Cursor.start scattered.words).Yields [3, 130] ∧
      (Mask.mk scattered).isSelected 200 = false ∧
        (allClear 200).raise [3, 130] = .ok scattered := by
  have hfirst : (allClear 200).set 3 true = .ok ⟨#[8, 0, 0, 0], 200, 1⟩ := by decide
  have hsecond : (⟨#[8, 0, 0, 0], 200, 1⟩ : Bits).set 130 true = .ok scattered := by decide
  have hbuilt : scattered.Built := .set (.set (.allClear 200) hfirst) hsecond
  have hcalls : (Cursor.start scattered.words).Yields [3, 130] :=
    have h₁ : (Cursor.start scattered.words).next? = some (3, ⟨scattered.words, 0, 0⟩) := by
      decide +kernel
    have h₂ : (⟨scattered.words, 0, 0⟩ : Cursor).next? = some (130, ⟨scattered.words, 2, 0⟩) := by
      decide +kernel
    .step h₁ (.step h₂ (.done (by decide +kernel)))
  obtain ⟨hyields, -, -, -, hmask, hrebuilt⟩ := hbuilt.enumeration
  have hindices := (hyields _).mp hcalls
  rw [← hindices] at hrebuilt
  refine ⟨hbuilt, hcalls, ?_, hrebuilt⟩
  have hrow := (hmask ⟨scattered⟩ rfl).2.2 200
  rw [Mask.rows, ← hindices] at hrow
  exact Bool.eq_false_iff.mpr fun hs => absurd (hrow.mp hs) (by decide)

end Bits

end RowSieve

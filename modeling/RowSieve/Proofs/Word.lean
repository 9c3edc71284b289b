import Mathlib.Data.List.Sort
import RowSieve.Bits

/-!
# Words

A word is its 64 bits.  Its ones are found one after another, by taking the lowest and dropping it.

* `Word.ext_test`: a word is determined by its bits.
* `Word.test_dropLowest`: what is left of a word without its lowest one.
* `Word.ones_eq_cons`: the ones of a word are the lowest and those that are left.
-/

namespace RowSieve.Word

/-! ### Bits -/

@[simp] theorem test_zero (place : Nat) : test 0 place = false := by
  simp [test]

@[simp] theorem test_and (left right : UInt64) (place : Nat) :
    test (left &&& right) place = (test left place && test right place) := by
  simp [test]

@[simp] theorem test_or (left right : UInt64) (place : Nat) :
    test (left ||| right) place = (test left place || test right place) := by
  simp [test]

@[simp] theorem test_not (word : UInt64) (place : Nat) :
    test (~~~word) place = (decide (place < 64) && !test word place) := by
  simp [test]

theorem test_single (position place : Nat) :
    test (single position) place = (decide (position < 64) && decide (position = place)) := by
  simp [test, single, BitVec.getLsbD_twoPow]

/-- A word is determined by its 64 bits. -/
theorem ext_test {left right : UInt64} (h : ∀ place < 64, test left place = test right place) :
    left = right :=
  UInt64.toBitVec_inj.mp (BitVec.eq_of_getLsbD_eq fun place hp => h place hp)

theorem ones_eq (word : UInt64) : ones word = (List.range 64).filter (test word) := by
  unfold ones
  split
  next h => subst h; simp
  next => rfl

theorem mem_ones {word : UInt64} {place : Nat} :
    place ∈ ones word ↔ place < 64 ∧ test word place = true := by
  rw [ones_eq, List.mem_filter, List.mem_range]

theorem pairwise_ones (word : UInt64) : (ones word).Pairwise (· < ·) := by
  rw [ones_eq]
  exact List.pairwise_lt_range.filter _

/-! ### The lowest one -/

theorem test_of_lt_lowest {word : UInt64} {place : Nat} (h : place < lowest word) :
    test word place = false :=
  BitVec.getLsbD_false_of_lt_ctz h

theorem test_lowest {word : UInt64} (h : word ≠ 0) : test word (lowest word) = true :=
  BitVec.getLsbD_true_ctz_of_ne_zero fun hz => h (UInt64.toBitVec_inj.mp hz)

theorem lowest_lt {word : UInt64} (h : word ≠ 0) : lowest word < 64 :=
  BitVec.lt_of_getLsbD (test_lowest h)

/-- An odd number differs from the even one before it in the lowest bit. -/
theorem testBit_two_mul_add_one (half : Nat) {place : Nat} (h : place ≠ 0) :
    (2 * half + 1).testBit place = (2 * half).testBit place := by
  obtain ⟨above, rfl⟩ := Nat.exists_eq_succ_of_ne_zero h
  have hodd : (2 * half + 1) / 2 = half := by omega
  have heven : 2 * half / 2 = half := by omega
  rw [Nat.testBit_succ, Nat.testBit_succ, hodd, heven]

/-- Taking one from a number changes its bits up to the lowest one, which is lost. -/
theorem testBit_and_sub_one {n lowest : Nat} (h : n.testBit lowest = true)
    (hlow : ∀ place < lowest, n.testBit place = false) (place : Nat) :
    (n &&& (n - 1)).testBit place = (n.testBit place && decide (place ≠ lowest)) := by
  have hmod : n % 2 ^ lowest = 0 := Nat.eq_of_testBit_eq fun place => by
    rw [Nat.testBit_mod_two_pow, Nat.zero_testBit]
    by_cases hp : place < lowest
    · rw [hlow place hp, Bool.and_false]
    · rw [decide_eq_false hp, Bool.false_and]
  -- an odd multiple of a power of two
  obtain ⟨half, hhalf⟩ : ∃ half, n / 2 ^ lowest = 2 * half + 1 := by
    have hodd := Nat.testBit_div_two_pow (n := lowest) n 0
    rw [Nat.zero_add, h, Nat.testBit_zero, decide_eq_true_iff] at hodd
    exact ⟨n / 2 ^ lowest / 2, by omega⟩
  have hpos := Nat.two_pow_pos lowest
  have hn : n = 2 ^ lowest * (2 * half + 1) := by
    have hdiv := Nat.div_add_mod n (2 ^ lowest)
    rw [hmod, hhalf, Nat.add_zero] at hdiv
    exact hdiv.symm
  have hpred : n - 1 = 2 ^ lowest * (2 * half) + (2 ^ lowest - 1) := by
    rw [hn, Nat.mul_succ]
    omega
  rw [Nat.testBit_and]
  rcases Nat.lt_or_ge place lowest with hp | hp
  · rw [hlow place hp, Bool.false_and, Bool.false_and]
  · obtain ⟨above, rfl⟩ := Nat.exists_eq_add_of_le hp
    have hat : n.testBit (lowest + above) = (2 * half + 1).testBit above := by
      rw [hn, Nat.testBit_two_pow_mul, Nat.add_sub_cancel_left, decide_eq_true hp, Bool.true_and]
    have hbelow : (n - 1).testBit (lowest + above) = (2 * half).testBit above := by
      rw [hpred, Nat.testBit_two_pow_mul_add _ (Nat.sub_lt hpos Nat.one_pos),
        if_neg (Nat.not_lt.mpr hp), Nat.add_sub_cancel_left]
    rw [hat, hbelow]
    by_cases ha : above = 0
    · subst ha
      simp
    · have hne : lowest + above ≠ lowest := by omega
      rw [testBit_two_mul_add_one half ha, Bool.and_self, decide_eq_true hne, Bool.and_true]

/-- **A word without its lowest one** has the other ones left. -/
theorem test_dropLowest {word : UInt64} (h : word ≠ 0) (place : Nat) :
    test (dropLowest word) place = (test word place && decide (place ≠ lowest word)) := by
  have hbit : ∀ (word : UInt64) (place : Nat), test word place = word.toNat.testBit place :=
    fun word place => (BitVec.testBit_toNat word.toBitVec).symm
  have hone : (1 : UInt64) ≤ word := UInt64.le_iff_toNat_le.mpr <|
    Nat.pos_of_ne_zero fun hz => h (UInt64.toNat_inj.mp hz)
  rw [hbit, hbit, dropLowest, UInt64.toNat_and, UInt64.toNat_sub_of_le _ _ hone]
  refine testBit_and_sub_one ?_ (fun place hp => ?_) place
  · rw [← hbit, test_lowest h]
  · rw [← hbit, test_of_lt_lowest hp]

/-- **The ones of a word** are the lowest and those that are left without it. -/
theorem ones_eq_cons {word : UInt64} (h : word ≠ 0) :
    ones word = lowest word :: ones (dropLowest word) := by
  refine (pairwise_ones word).eq_of_mem_iff ?_ fun place => ?_
  · refine List.pairwise_cons.mpr ⟨fun place hp => ?_, pairwise_ones _⟩
    rw [mem_ones, test_dropLowest h, Bool.and_eq_true, decide_eq_true_iff] at hp
    obtain ⟨-, ht, hne⟩ := hp
    refine Nat.lt_of_le_of_ne (Nat.le_of_not_lt fun hlt => ?_) (Ne.symm hne)
    rw [test_of_lt_lowest hlt] at ht
    cases ht
  · rw [List.mem_cons, mem_ones, mem_ones, test_dropLowest h, Bool.and_eq_true, decide_eq_true_iff]
    by_cases he : place = lowest word
    · subst he
      simp [lowest_lt h, test_lowest h]
    · simp [he]

end RowSieve.Word

import Mathlib.Tactic.Linarith
import RowSieve.Binary64.Arithmetic
import RowSieve.Proofs.Binary64

/-!
# Comparing integers with floating-point numbers

An integer is compared with a number in steps: the number may lie out of the range of integers; else
its whole part is compared, and between equals the sign of what was cut off decides.  No step rounds
in a way that shows: the whole part of a number is a number and an integer, and a difference keeps
its sign when it is rounded.

* `Binary64.units_trunc`, `Binary64.toInt_toInt64`: the whole part, as a number and as an integer.
* `Binary64.compare_zero_sub`: the sign of a rounded difference.
* `Binary64.compareInt?_eq_units`: the steps find the order of the exact values.
-/

namespace RowSieve.Binary64

/-! ### Patterns put together -/

/-- The parts of a pattern given by what is above the fraction and the fraction. -/
theorem parts_of_toNat {x : Binary64} {high low : ℕ} (h : x.bits.toNat = high * 2 ^ 52 + low)
    (hl : low < 2 ^ 52) :
    x.isNegative = decide (2 ^ 11 ≤ high) ∧ x.exponent = high % 2 ^ 11 ∧ x.fraction = low := by
  refine ⟨?_, ?_, ?_⟩
  · rw [isNegative, decide_eq_decide]
    omega
  · rw [exponent]
    omega
  · rw [fraction]
    omega

theorem toNat_signed (negative : Bool) {pattern : ℕ} (h : pattern < 2 ^ 63) :
    (signed negative pattern).bits.toNat =
      ((if negative then 2 ^ 11 else 0) + pattern / 2 ^ 52) * 2 ^ 52 + pattern % 2 ^ 52 := by
  rw [signed]
  cases negative
  · simp only [Bool.false_eq_true, if_false]
    rw [UInt64.toNat_ofNat_of_lt' (by simp only [UInt64.size]; omega)]
    omega
  · simp only [if_true]
    rw [UInt64.toNat_ofNat_of_lt' (by simp only [UInt64.size]; omega)]
    omega

theorem isNegative_signed (negative : Bool) {pattern : ℕ} (h : pattern < 2 ^ 63) :
    (signed negative pattern).isNegative = negative := by
  rw [(parts_of_toNat (toNat_signed negative h) (by omega)).1]
  cases negative
  · simp
    omega
  · simp

theorem exponent_signed (negative : Bool) {pattern : ℕ} (h : pattern < 2 ^ 63) :
    (signed negative pattern).exponent = pattern / 2 ^ 52 := by
  rw [(parts_of_toNat (toNat_signed negative h) (by omega)).2.1]
  cases negative <;> simp <;> omega

theorem fraction_signed (negative : Bool) {pattern : ℕ} (h : pattern < 2 ^ 63) :
    (signed negative pattern).fraction = pattern % 2 ^ 52 :=
  (parts_of_toNat (toNat_signed negative h) (by omega)).2.2

theorem lt_of_le_infinitePattern {pattern : ℕ} (h : pattern ≤ infinitePattern) :
    pattern < 2 ^ 63 :=
  Nat.lt_of_le_of_lt h (by decide)

theorem isNaN_signed (negative : Bool) {pattern : ℕ} (h : pattern ≤ infinitePattern) :
    (signed negative pattern).isNaN = false := by
  have hlt := lt_of_le_infinitePattern h
  have hpattern : pattern / 2 ^ 52 = 2047 → pattern % 2 ^ 52 = 0 := by
    unfold infinitePattern at h
    omega
  rw [isNaN, exponent_signed negative hlt, fraction_signed negative hlt]
  simpa using hpattern

theorem magnitude_signed_eq_zero_iff (negative : Bool) {pattern : ℕ} (h : pattern < 2 ^ 63) :
    (signed negative pattern).magnitude = 0 ↔ pattern = 0 := by
  rw [magnitude_eq_zero_iff, isZero, exponent_signed negative h, fraction_signed negative h,
    Bool.and_eq_true, decide_eq_true_iff, decide_eq_true_iff]
  omega

theorem units_signed_zero (negative : Bool) : (signed negative 0).units = 0 := by
  rw [units_eq, (magnitude_signed_eq_zero_iff negative (by decide)).mpr rfl]
  simp

/-- Zero comes after what is negative, and before what is positive. -/
theorem compare_zero_signed (negative : Bool) {pattern : ℕ} (hp : 0 < pattern)
    (h : pattern < 2 ^ 63) :
    compare 0 (signed negative pattern).units = if negative then .gt else .lt := by
  have hmag : 0 < (signed negative pattern).magnitude :=
    Nat.pos_of_ne_zero fun hz => hp.ne' ((magnitude_signed_eq_zero_iff negative h).mp hz)
  rw [units_eq, isNegative_signed negative h]
  cases negative
  · exact compare_lt_iff_lt.mpr (Int.natCast_pos.mpr hmag)
  · exact compare_gt_iff_gt.mpr (Int.neg_neg_of_pos (Int.natCast_pos.mpr hmag))

/-! ### The sign of a rounded difference -/

theorem isNaN_of_exponent {x : Binary64} (h : x.exponent ≠ 2047) : x.isNaN = false := by
  simp [isNaN, h]

theorem isInfinite_of_exponent {x : Binary64} (h : x.exponent ≠ 2047) : x.isInfinite = false := by
  simp [isInfinite, h]

theorem le_divHalfEven (n d : ℕ) : n / d ≤ divHalfEven n d := by
  unfold divHalfEven
  dsimp only
  split <;> omega

/-- No number of units is rounded to none. -/
theorem patternOfUnits_pos {units : ℕ} (h : 0 < units) : 0 < patternOfUnits units := by
  have hle : 1 <<< (units.log2 - 52) ≤ units := by
    rw [Nat.shiftLeft_eq, Nat.one_mul]
    exact (Nat.pow_le_pow_right Nat.two_pos (Nat.sub_le _ _)).trans (Nat.log2_self_le h.ne')
  have hpos : 0 < 1 <<< (units.log2 - 52) := by
    rw [Nat.shiftLeft_eq, Nat.one_mul]
    exact Nat.two_pow_pos _
  have hquotient := (Nat.div_pos hle hpos).trans_le (le_divHalfEven units _)
  unfold patternOfUnits
  dsimp only
  split
  · omega
  · decide

theorem patternOfUnits_le (units : ℕ) : patternOfUnits units ≤ infinitePattern := by
  unfold patternOfUnits
  dsimp only
  split <;> omega

/-- **The sign of a difference** is not lost in rounding. -/
theorem compare_zero_sub {x y : Binary64} (hx : x.exponent ≠ 2047) (hy : y.exponent ≠ 2047) :
    zero.compare? (x.sub y) = some (compare 0 (x.units - y.units)) := by
  have hzero : zero.isNaN = false ∧ zero.units = 0 := by decide
  rw [sub, isNaN_of_exponent hx, isNaN_of_exponent hy, isInfinite_of_exponent hx,
    isInfinite_of_exponent hy]
  simp only [Bool.or_self, Bool.false_eq_true, if_false]
  generalize x.units - y.units = difference
  split
  next hd =>
    rw [compare?, hzero.1, isNaN_signed _ (Nat.zero_le _), hzero.2, units_signed_zero, hd]
    rfl
  next hd =>
    have hpos := patternOfUnits_pos (Int.natAbs_pos.mpr hd)
    have hle := patternOfUnits_le difference.natAbs
    rw [compare?, hzero.1, isNaN_signed _ hle, hzero.2,
      compare_zero_signed _ hpos (lt_of_le_infinitePattern hle)]
    simp only [Bool.or_self, Bool.false_eq_true, if_false, Option.some.injEq, decide_eq_true_eq]
    split
    next hs => exact (compare_gt_iff_gt.mpr hs).symm
    next hs => exact (compare_lt_iff_lt.mpr (lt_of_le_of_ne (not_lt.mp hs) (Ne.symm hd))).symm

/-! ### The whole part -/

theorem mod_two_pow_eq (x : Binary64) {places : ℕ} (h : places ≤ 52) :
    x.bits.toNat % 2 ^ places = x.fraction % 2 ^ places := by
  have hfraction : x.fraction = x.bits.toNat % 2 ^ 52 := rfl
  rw [hfraction, Nat.mod_mod_of_dvd _ (Nat.pow_dvd_pow 2 h)]

/-- From one on, the low places of the fraction are those after the point. -/
theorem parts_trunc {x : Binary64} (h : 1023 ≤ x.exponent) :
    x.trunc.isNegative = x.isNegative ∧ x.trunc.exponent = x.exponent ∧
      x.trunc.fraction = x.fraction - x.fraction % 2 ^ (1075 - x.exponent) := by
  have hlt := x.bits.toNat_lt
  have hfraction := x.fraction_lt
  have hbits : x.bits.toNat = x.bits.toNat / 2 ^ 52 * 2 ^ 52 + x.fraction :=
    (Nat.div_add_mod' _ _).symm
  obtain ⟨hn, he, -⟩ := parts_of_toNat hbits hfraction
  have htrunc : x.trunc.bits.toNat = x.bits.toNat / 2 ^ 52 * 2 ^ 52 +
      (x.fraction - x.fraction % 2 ^ (1075 - x.exponent)) := by
    have hle := Nat.mod_le x.fraction (2 ^ (1075 - x.exponent))
    rw [trunc, if_neg (Nat.not_lt.mpr h)]
    dsimp only
    rw [Nat.shiftLeft_eq, Nat.one_mul, x.mod_two_pow_eq (by omega),
      UInt64.toNat_ofNat_of_lt' (by simp only [UInt64.size]; omega)]
    omega
  obtain ⟨hn', he', hf'⟩ := parts_of_toNat htrunc (Nat.lt_of_le_of_lt (Nat.sub_le _ _) hfraction)
  exact ⟨hn'.trans hn.symm, he'.trans he.symm, hf'⟩

theorem isNegative_trunc (x : Binary64) : x.trunc.isNegative = x.isNegative := by
  by_cases he : x.exponent < 1023
  · rw [trunc, if_pos he, isNegative_signed _ (by decide)]
  · exact (parts_trunc (Nat.le_of_not_lt he)).1

theorem significand_trunc {x : Binary64} (h : 1023 ≤ x.exponent) :
    x.trunc.significand =
      x.significand / 2 ^ (1075 - x.exponent) * 2 ^ (1075 - x.exponent) := by
  obtain ⟨-, he, hf⟩ := parts_trunc h
  have hle := Nat.mod_le x.fraction (2 ^ (1075 - x.exponent))
  -- the leading one is before the point
  have hone : 2 ^ (1075 - x.exponent) ∣ 0x10000000000000 :=
    Nat.pow_dvd_pow 2 (show 1075 - x.exponent ≤ 52 by omega)
  have hmod : (0x10000000000000 + x.fraction) % 2 ^ (1075 - x.exponent) =
      x.fraction % 2 ^ (1075 - x.exponent) := by
    rw [Nat.add_mod, Nat.mod_eq_zero_of_dvd hone, Nat.zero_add, Nat.mod_mod]
  have hdiv := Nat.div_add_mod' (0x10000000000000 + x.fraction) (2 ^ (1075 - x.exponent))
  rw [significand, significand, he, hf, if_neg (by omega), if_neg (by omega)]
  omega

/-- The whole part of a finite number is finite. -/
theorem exponent_trunc_ne {x : Binary64} (h : x.exponent ≠ 2047) : x.trunc.exponent ≠ 2047 := by
  by_cases he : x.exponent < 1023
  · rw [trunc, if_pos he, exponent_signed _ (by decide)]
    decide
  · rwa [(parts_trunc (Nat.le_of_not_lt he)).2.1]

/-- **The whole part** of a magnitude. -/
theorem magnitude_trunc (x : Binary64) :
    x.trunc.magnitude = x.magnitude / unitsPerOne * unitsPerOne := by
  rw [unitsPerOne_eq]
  by_cases he : x.exponent < 1023
  · have hplaces : leastPlaces = 53 + 1021 := rfl
    have hlt : x.magnitude < 2 ^ leastPlaces :=
      hplaces ▸ x.magnitude_lt_two_pow (by unfold scale; omega)
    rw [trunc, if_pos he, Nat.div_eq_of_lt hlt, Nat.zero_mul,
      magnitude_signed_eq_zero_iff _ (by decide)]
  · have hge := Nat.le_of_not_lt he
    have hscale : x.trunc.scale = x.scale := by rw [scale, (parts_trunc hge).2.1, scale]
    rw [magnitude, hscale, significand_trunc hge, magnitude]
    by_cases hpoint : 1075 ≤ x.exponent
    · -- no places after the point
      obtain ⟨rest, hrest⟩ : ∃ rest, x.scale = leastPlaces + rest :=
        ⟨x.scale - leastPlaces, by unfold scale leastPlaces; omega⟩
      have hdvd : 2 ^ leastPlaces ∣ x.significand * 2 ^ x.scale :=
        Dvd.dvd.mul_left (Nat.pow_dvd_pow 2 (hrest ▸ Nat.le_add_right _ _)) _
      rw [Nat.div_mul_cancel hdvd, Nat.sub_eq_zero_of_le hpoint]
      simp
    · have hplaces : leastPlaces = 1075 - x.exponent + x.scale := by
        unfold scale leastPlaces
        omega
      rw [hplaces, Nat.pow_add, Nat.mul_div_mul_right _ _ (Nat.two_pow_pos _), Nat.mul_assoc]

/-- **The whole part** of a number. -/
theorem units_trunc (x : Binary64) :
    x.trunc.units = x.units.tdiv unitsPerOne * unitsPerOne := by
  rw [units_eq, units_eq, isNegative_trunc, magnitude_trunc]
  cases x.isNegative
  · rw [if_neg Bool.false_ne_true, if_neg Bool.false_ne_true]
    push_cast
    rw [Int.tdiv_eq_ediv_of_nonneg (Int.natCast_nonneg _)]
  · rw [if_pos rfl, if_pos rfl, Int.neg_tdiv, Int.neg_mul]
    push_cast
    rw [Int.tdiv_eq_ediv_of_nonneg (Int.natCast_nonneg _)]

/-- A number in the range of integers has the integer of its whole part. -/
theorem toInt_toInt64 {x : Binary64} (hn : x.isNaN = false)
    (hl : -2 ^ 63 ≤ x.units.tdiv unitsPerOne) (hu : x.units.tdiv unitsPerOne < 2 ^ 63) :
    x.toInt64.toInt = x.units.tdiv unitsPerOne := by
  rw [toInt64, if_neg (by simp [hn])]
  exact Int64.toInt_ofIntClamp hl (Int.le_sub_one_of_lt hu)

/-! ### The range of integers -/

theorem units_integerLimit : integerLimit.units = 2 ^ 63 * unitsPerOne := by
  decide +kernel

theorem units_neg_integerLimit : integerLimit.neg.units = -(2 ^ 63 * unitsPerOne) := by
  decide +kernel

theorem compare?_of_not_isNaN {x y : Binary64} (hx : x.isNaN = false) (hy : y.isNaN = false) :
    x.compare? y = some (compare x.units y.units) := by
  rw [compare?, hx, hy]
  rfl

theorem below_iff {x y : Binary64} (hx : x.isNaN = false) (hy : y.isNaN = false) :
    x.below y = true ↔ x.units < y.units := by
  rw [below, compare?_of_not_isNaN hx hy, decide_eq_true_iff, Option.some.injEq,
    compare_lt_iff_lt]

theorem atLeast_iff {x y : Binary64} (hx : x.isNaN = false) (hy : y.isNaN = false) :
    x.atLeast y = true ↔ y.units ≤ x.units := by
  rw [atLeast, compare?_of_not_isNaN hx hy, Bool.or_eq_true, decide_eq_true_iff,
    decide_eq_true_iff, Option.some.injEq, Option.some.injEq, compare_eq_iff_eq,
    compare_gt_iff_gt, le_iff_lt_or_eq, or_comm, eq_comm]

/-- A number with fewer units than the infinities is finite. -/
theorem exponent_ne_of_units {x : Binary64} (hn : x.isNaN = false)
    (hl : -unitsLimit < x.units) (hu : x.units < unitsLimit) : x.exponent ≠ 2047 := by
  intro he
  have hi : x.isInfinite = true := by
    rw [isNaN, he] at hn
    rw [isInfinite, he]
    simpa using hn
  rw [units_eq, magnitude_of_isInfinite hi] at hl hu
  cases hs : x.isNegative
  · rw [hs, if_neg Bool.false_ne_true] at hu
    exact lt_irrefl _ hu
  · rw [hs, if_pos rfl] at hl
    exact lt_irrefl _ hl

/-- **Whole parts first, then what is cut off.** -/
theorem compare_tdiv_then (a u : ℤ) {unit : ℤ} (hunit : 0 < unit) :
    (compare a (u.tdiv unit)).then (compare 0 (u - u.tdiv unit * unit)) =
      compare (a * unit) u := by
  have hu := Int.tdiv_mul_add_tmod u unit
  have hlow := Int.lt_tmod_of_pos u hunit
  have hhigh := Int.tmod_lt_of_pos u hunit
  generalize u.tdiv unit = whole at hu ⊢
  rcases lt_trichotomy a whole with h | rfl | h
  · have hstep : (a + 1) * unit ≤ whole * unit := mul_le_mul_of_nonneg_right h hunit.le
    have hlt : a * unit < u := by linarith
    rw [compare_lt_iff_lt.mpr h, compare_lt_iff_lt.mpr hlt]
    rfl
  · have hsub : compare 0 (u - a * unit) = compare (a * unit) u := by
      rcases lt_trichotomy (a * unit) u with hc | hc | hc
      · rw [compare_lt_iff_lt.mpr hc, compare_lt_iff_lt]
        omega
      · rw [compare_eq_iff_eq.mpr hc, compare_eq_iff_eq]
        omega
      · rw [compare_gt_iff_gt.mpr hc, compare_gt_iff_gt]
        omega
    rw [compare_eq_iff_eq.mpr rfl, hsub]
    rfl
  · have hstep : (whole + 1) * unit ≤ a * unit := mul_le_mul_of_nonneg_right h hunit.le
    have hlt : u < a * unit := by linarith
    rw [compare_gt_iff_gt.mpr h, compare_gt_iff_gt.mpr hlt]
    rfl

theorem tdiv_lt_of_lt_mul {u bound unit : ℤ} (hunit : 0 < unit) (hb : 0 < bound)
    (h : u < bound * unit) : u.tdiv unit < bound := by
  rcases le_or_gt u 0 with hu | hu
  · have hle := Int.tdiv_le_tdiv hunit hu
    rw [Int.zero_tdiv] at hle
    exact hle.trans_lt hb
  · have hmul := Int.tdiv_mul_le u hunit.ne'
    rw [if_pos hu.le, Nat.cast_zero, add_zero] at hmul
    exact lt_of_mul_lt_mul_right (hmul.trans_lt h) hunit.le

/-- **The steps of the comparison find the order of the exact values**, both in units. -/
theorem compareInt?_eq_units (a : Int64) {x : Binary64} (hn : x.isNaN = false) :
    compareInt? a x = some (compare (a.toInt * unitsPerOne) x.units) := by
  have hunit := unitsPerOne_pos
  have hhigh : a.toInt * unitsPerOne < 2 ^ 63 * unitsPerOne :=
    mul_lt_mul_of_pos_right a.toInt_lt hunit
  have hlow : -2 ^ 63 * (unitsPerOne : ℤ) ≤ a.toInt * unitsPerOne :=
    mul_le_mul_of_nonneg_right a.le_toInt hunit.le
  have hlimit := atLeast_iff hn (y := integerLimit) (by decide)
  have hneg := below_iff hn (y := integerLimit.neg) (by decide)
  rw [units_integerLimit] at hlimit
  rw [units_neg_integerLimit, ← neg_mul] at hneg
  rw [compareInt?, if_neg (by simp [hn])]
  split
  next h => rw [compare_lt_iff_lt.mpr (hhigh.trans_le (hlimit.mp h))]
  next h =>
    rw [hlimit, not_le] at h
    split
    next h' => rw [compare_gt_iff_gt.mpr ((hneg.mp h').trans_le hlow)]
    next h' =>
      rw [hneg, not_lt] at h'
      -- the whole part is an integer
      have hfinite : x.exponent ≠ 2047 := by
        have hlim := mul_unitsPerOne_le
        exact exponent_ne_of_units hn (by linarith) (by linarith)
      have hwhole := exponent_trunc_ne hfinite
      have hunits : x.trunc.units.tdiv unitsPerOne = x.units.tdiv unitsPerOne := by
        rw [units_trunc, Int.mul_tdiv_cancel _ hunit.ne']
      have hint : x.trunc.toInt64.toInt = x.units.tdiv unitsPerOne := by
        rw [← hunits, toInt_toInt64 (isNaN_of_exponent hwhole)]
        · rw [hunits]
          exact Int.le_tdiv_of_mul_le hunit h'
        · rw [hunits]
          exact tdiv_lt_of_lt_mul hunit (by decide) h
      dsimp only
      rw [compare_zero_sub hfinite hwhole, hint, units_trunc, Option.getD_some,
        compare_tdiv_then _ _ hunit]

/-- **The order of an integer and a number** is that of their values. -/
theorem compareInt?_eq (a : Int64) {x : Binary64} (hx : x.isNaN = false) :
    ∃ order, compareInt? a x = some order ∧ ∃ right, x.value? = some right ∧
      (order = .lt ↔ Extended.ofInt a.toInt < right) ∧
      (order = .eq ↔ Extended.ofInt a.toInt = right) := by
  obtain ⟨hmem, hvalue⟩ := ofUnits_ofInt64 a
  refine ⟨_, compareInt?_eq_units a hx, _, value?_eq_some hx, ?_⟩
  rw [← hvalue]
  exact compare_units hmem (units_mem hx)

end RowSieve.Binary64

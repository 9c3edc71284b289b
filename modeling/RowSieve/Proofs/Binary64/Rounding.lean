import Mathlib.Tactic.Ring
import RowSieve.Proofs.Binary64.Arithmetic

/-!
# Integers as floating-point numbers

An integer with more than 53 binary places has no number of its own, and the nearest one stands in
for it.  `Binary64.IsNearest` says this of the exact values: no finite number is nearer, and of two
that are as near it is the one with the even significand.

* `Binary64.divHalfEven_nearest`: a rounded quotient is the nearest one.
* `Binary64.dvd_units_or_lt`: a number is a multiple of a power of two, or so small that it has the
  places for less.
* `Binary64.isNearest_ofInt64`: the number of an integer is the nearest one.
-/

namespace RowSieve.Binary64

/-! ### Nearest numbers -/

/-- **The number nearest to an integer**: it is finite, no finite number is nearer, and if another
one is as near, its own significand is even. -/
def IsNearest (x : Binary64) (a : ℤ) : Prop :=
  ∃ value : ℚ, x.value? = some ((value : WithTop ℚ) : Extended) ∧
    ∀ (y : Binary64) (other : ℚ), y.value? = some ((other : WithTop ℚ) : Extended) →
      |value - a| ≤ |other - a| ∧
        (|value - a| = |other - a| → other = value ∨ 2 ∣ x.significand)

/-- The value of a finite number. -/
theorem value?_of_exponent {x : Binary64} (h : x.exponent ≠ 2047) :
    x.value? = some (((x.units / unitsPerOne : ℚ) : WithTop ℚ) : Extended) := by
  have hn := isNaN_of_exponent h
  have hlim := magnitude_lt hn (isInfinite_of_exponent h)
  have hmag : 0 ≤ (x.magnitude : ℤ) := Int.natCast_nonneg _
  have hlow : ¬ x.units ≤ -unitsLimit := by
    rw [units_eq]
    split <;> omega
  have hhigh : ¬ unitsLimit ≤ x.units := by
    rw [units_eq]
    split <;> omega
  rw [value?_eq_some hn, ofUnits, if_neg hlow, if_neg hhigh, unitsPerOne_eq]
  push_cast
  rfl

/-- Only finite numbers have a rational value. -/
theorem exponent_of_value? {x : Binary64} {value : ℚ}
    (h : x.value? = some ((value : WithTop ℚ) : Extended)) : x.exponent ≠ 2047 := by
  intro he
  by_cases hf : x.fraction = 0
  · rw [value?, isNaN, isInfinite, he, hf] at h
    simp only [decide_true, ne_eq, not_true_eq_false, decide_false, Bool.and_false, Bool.and_true,
      Bool.false_eq_true, if_false, if_true, Option.some.injEq] at h
    split at h
    · exact WithBot.bot_ne_coe h
    · exact WithTop.top_ne_coe (WithBot.coe_injective h)
  · rw [value?, isNaN, he] at h
    simp [hf] at h

/-- Distances are compared in units. -/
theorem abs_value_sub (units a : ℤ) :
    |(units / unitsPerOne : ℚ) - a| = (|units - a * unitsPerOne| : ℤ) / unitsPerOne := by
  have hpos : (0 : ℚ) < unitsPerOne := by exact_mod_cast unitsPerOne_pos
  have hsub : (units / unitsPerOne : ℚ) - a = (units - a * unitsPerOne) / unitsPerOne := by
    rw [sub_div, mul_div_cancel_right₀ _ hpos.ne']
  rw [hsub, abs_div, abs_of_pos hpos]
  push_cast
  rfl

/-- A finite number whose units are nearest. -/
theorem isNearest_of_units {x : Binary64} {a : ℤ} (hx : x.exponent ≠ 2047)
    (h : ∀ y : Binary64, |x.units - a * unitsPerOne| ≤ |y.units - a * unitsPerOne| ∧
      (|x.units - a * unitsPerOne| = |y.units - a * unitsPerOne| →
        y.units = x.units ∨ 2 ∣ x.significand)) : x.IsNearest a := by
  have hpos : (0 : ℚ) < unitsPerOne := by exact_mod_cast unitsPerOne_pos
  refine ⟨_, value?_of_exponent hx, fun y other hy => ?_⟩
  have hfinite := value?_of_exponent (exponent_of_value? hy)
  obtain rfl := WithTop.coe_injective (WithBot.coe_injective (Option.some.inj (hfinite.symm.trans hy)))
  obtain ⟨hle, heq⟩ := h y
  rw [abs_value_sub, abs_value_sub]
  refine ⟨div_le_div_of_nonneg_right (by exact_mod_cast hle) hpos.le, fun hd => ?_⟩
  rw [div_left_inj' hpos.ne'] at hd
  exact (heq (by exact_mod_cast hd)).imp_left fun hu => by rw [hu]

/-- An integer that is a number is its own nearest one. -/
theorem isNearest_of_units_eq {x : Binary64} {a : ℤ} (hx : x.exponent ≠ 2047)
    (h : x.units = a * unitsPerOne) : x.IsNearest a := by
  refine isNearest_of_units hx fun y => ?_
  rw [h, sub_self, abs_zero]
  exact ⟨abs_nonneg _, fun hy => .inl (sub_eq_zero.mp (abs_eq_zero.mp hy.symm))⟩

/-! ### Rounded quotients -/

/-- **A rounded quotient** is the nearest one, and even if another one is as near. -/
theorem divHalfEven_nearest {n d : ℕ} (hd : 0 < d) (k : ℤ) :
    |(divHalfEven n d : ℤ) * d - n| ≤ |k * d - n| ∧
      (|(divHalfEven n d : ℤ) * d - n| = |k * d - n| →
        k = divHalfEven n d ∨ 2 ∣ divHalfEven n d) := by
  obtain ⟨quotient, hq⟩ : ∃ quotient, quotient = n / d := ⟨_, rfl⟩
  obtain ⟨rest, hr⟩ : ∃ rest, rest = n % d := ⟨_, rfl⟩
  have hlt : rest < d := hr ▸ Nat.mod_lt n hd
  have hn : (n : ℤ) = quotient * d + rest := by
    rw [hq, hr, mul_comm]
    exact_mod_cast (Nat.div_add_mod n d).symm
  -- the other quotient, as so many steps from the one that is rounded down
  obtain ⟨steps, rfl⟩ : ∃ steps : ℤ, k = quotient + steps := ⟨k - quotient, by ring⟩
  have hother : (quotient + steps) * d - n = steps * d - rest := by rw [hn]; ring
  have hdown : (quotient : ℤ) * d - n = -rest := by rw [hn]; ring
  have hup : ((quotient + 1 : ℕ) : ℤ) * d - n = d - rest := by rw [hn]; push_cast; ring
  have hsteps : steps = 0 ∨ steps = 1 ∨ steps * d ≤ -d ∨ 2 * d ≤ steps * d := by
    rcases lt_trichotomy steps 0 with h | h | h
    · exact .inr (.inr (.inl (by nlinarith)))
    · exact .inl h
    · rcases eq_or_lt_of_le (Int.add_one_le_of_lt h) with h | h
      · exact .inr (.inl h.symm)
      · exact .inr (.inr (.inr (by nlinarith)))
  rw [divHalfEven, ← hq, ← hr, hother]
  split
  next hround =>
    simp only [Bool.or_eq_true, Bool.and_eq_true, decide_eq_true_eq] at hround
    rw [hdown, Int.abs_eq_natAbs, Int.abs_eq_natAbs]
    rcases hsteps with rfl | rfl | h | h <;> omega
  next hround =>
    simp only [Bool.or_eq_true, Bool.and_eq_true, decide_eq_true_eq] at hround
    rw [hup, Int.abs_eq_natAbs, Int.abs_eq_natAbs]
    rcases hsteps with rfl | rfl | h | h <;> omega

/-- **A number is a multiple** of a power of two, or so small that it has the places for less. -/
theorem dvd_units_or_lt (x : Binary64) (places : ℕ) :
    ((2 ^ places : ℕ) : ℤ) ∣ x.units ∨ |x.units| < 2 ^ 52 * (2 ^ places : ℕ) := by
  have habs : |x.units| = x.magnitude := by
    rw [units_eq]
    split <;> simp
  by_cases hp : places ≤ x.scale
  · left
    have hdvd : 2 ^ places ∣ x.magnitude := Dvd.dvd.mul_left (Nat.pow_dvd_pow 2 hp) _
    rw [← abs_dvd_abs, habs, Nat.abs_cast]
    exact_mod_cast hdvd
  · right
    obtain ⟨rest, rfl⟩ : ∃ rest, places = rest + 1 := ⟨places - 1, by omega⟩
    have hlt := x.magnitude_lt_two_pow (show x.scale ≤ rest by omega)
    have hpow : 2 ^ (53 + rest) = 2 ^ 52 * 2 ^ (rest + 1) := by
      rw [← Nat.pow_add]
      congr 1
      omega
    rw [habs]
    rw [hpow] at hlt
    exact_mod_cast hlt

section Units

variable {n d : ℕ} {unit : ℤ}

/-- **A rounded quotient of units** is nearest among the multiples, and among all that is smaller
than the dividend has places for. -/
theorem divHalfEven_nearest_units {units : ℤ} (hunit : 0 < unit) (hd : 0 < d)
    (hn : 2 ^ 52 * d ≤ n) (hu : d * unit ∣ units ∨ |units| < 2 ^ 52 * (d * unit)) :
    |divHalfEven n d * (d * unit) - n * unit| ≤ |units - n * unit| ∧
      (|divHalfEven n d * (d * unit) - n * unit| = |units - n * unit| →
        units = divHalfEven n d * (d * unit) ∨ 2 ∣ divHalfEven n d) := by
  have hscale : ∀ k : ℤ, |k * (d * unit) - n * unit| = |k * d - n| * unit := fun k => by
    rw [← abs_of_pos hunit, ← abs_mul, abs_of_pos hunit]
    congr 1
    ring
  rw [hscale]
  rcases hu with ⟨k, rfl⟩ | hsmall
  · obtain ⟨hle, heq⟩ := divHalfEven_nearest (n := n) hd k
    rw [mul_comm _ k, hscale]
    refine ⟨mul_le_mul_of_nonneg_right hle hunit.le, fun h => ?_⟩
    exact (heq (mul_right_cancel₀ hunit.ne' h)).imp_left fun hk => by rw [hk]
  · -- the least dividend with as many places is a multiple, and nearer
    have hleast := (divHalfEven_nearest (n := n) hd (2 ^ 52)).1
    have hn' : (2 ^ 52 : ℤ) * d ≤ n := by exact_mod_cast hn
    rw [abs_of_nonpos (sub_nonpos.mpr hn')] at hleast
    have hmul := mul_le_mul_of_nonneg_right hleast hunit.le
    have habove : n * unit - |units| ≤ |units - n * unit| := by
      have hle := neg_abs_le (units - n * unit)
      have hle' := le_abs_self units
      linarith
    have hlt : |(divHalfEven n d : ℤ) * d - n| * unit < |units - n * unit| := by linarith
    exact ⟨hlt.le, fun h => absurd h hlt.ne⟩

/-- The same below zero. -/
theorem divHalfEven_nearest_signed {sign units : ℤ} (hs : sign = 1 ∨ sign = -1) (hunit : 0 < unit)
    (hd : 0 < d) (hn : 2 ^ 52 * d ≤ n) (hu : d * unit ∣ units ∨ |units| < 2 ^ 52 * (d * unit)) :
    |sign * (divHalfEven n d * (d * unit)) - sign * (n * unit)| ≤ |units - sign * (n * unit)| ∧
      (|sign * (divHalfEven n d * (d * unit)) - sign * (n * unit)| = |units - sign * (n * unit)| →
        units = sign * (divHalfEven n d * (d * unit)) ∨ 2 ∣ divHalfEven n d) := by
  rcases hs with rfl | rfl
  · simpa only [one_mul] using divHalfEven_nearest_units hunit hd hn hu
  · rw [← dvd_neg, ← abs_neg] at hu
    obtain ⟨hle, heq⟩ := divHalfEven_nearest_units hunit hd hn hu
    have hflip : ∀ left : ℤ, |left - -1 * (n * unit)| = |-left - n * unit| := fun left => by
      rw [← abs_neg]
      congr 1
      ring
    rw [hflip, hflip, neg_one_mul, neg_neg]
    exact ⟨hle, fun h => (heq h).imp_left fun hu => by rw [← hu, neg_neg]⟩

end Units

/-! ### The number of an integer -/

theorem ofInt64_eq_signed (a : Int64) :
    ofInt64 a = signed (decide (a.toInt < 0)) (patternOfNat a.toInt.natAbs) := by
  rw [ofInt64, signed]
  simp only [decide_eq_true_eq]

/-- A pattern whose significand has its leading one, or has carried past it. -/
theorem parts_of_carry (negative : Bool) {scale significand : ℕ} (hs : scale < 2045)
    (hl : 2 ^ 52 ≤ significand) (hu : significand ≤ 2 ^ 53) :
    (signed negative (scale * 2 ^ 52 + significand)).exponent ≠ 2047 ∧
      (signed negative (scale * 2 ^ 52 + significand)).magnitude = significand * 2 ^ scale ∧
      (2 ∣ significand → 2 ∣ (signed negative (scale * 2 ^ 52 + significand)).significand) := by
  have hpattern : scale * 2 ^ 52 + significand < 2 ^ 63 := by omega
  have he := exponent_signed negative hpattern
  have hf := fraction_signed negative hpattern
  rcases eq_or_lt_of_le hu with rfl | hlt
  · have he' : (signed negative (scale * 2 ^ 52 + 2 ^ 53)).exponent = scale + 2 := by omega
    have hf' : (signed negative (scale * 2 ^ 52 + 2 ^ 53)).fraction = 0 := by omega
    rw [magnitude, Binary64.significand, Binary64.scale, he', hf', if_neg (by omega)]
    refine ⟨by omega, ?_, fun _ => by decide⟩
    rw [show scale + 2 - 1 = 1 + scale from by omega, Nat.pow_add]
    omega
  · have he' : (signed negative (scale * 2 ^ 52 + significand)).exponent = scale + 1 := by omega
    have hf' : (signed negative (scale * 2 ^ 52 + significand)).fraction = significand - 2 ^ 52 := by
      omega
    have hsig : 0x10000000000000 + (significand - 2 ^ 52) = significand := by omega
    rw [magnitude, Binary64.significand, Binary64.scale, he', hf', if_neg (by omega), hsig]
    exact ⟨by omega, rfl, id⟩

/-- The significand of an integer, before it is put into a pattern. -/
def leading (n : ℕ) : ℕ :=
  if n.log2 ≤ 52 then n <<< (52 - n.log2) else divHalfEven n (1 <<< (n.log2 - 52))

theorem patternOfNat_eq {n : ℕ} (hn : n ≠ 0) :
    patternOfNat n = (1022 + n.log2) * 2 ^ 52 + leading n := by
  rw [patternOfNat, if_neg hn]
  rfl

/-- With 53 places or fewer, no place is lost. -/
theorem leading_of_le {n : ℕ} (h : n.log2 ≤ 52) :
    leading n * 2 ^ (1022 + n.log2) = n * unitsPerOne := by
  have hplaces : leastPlaces = 52 - n.log2 + (1022 + n.log2) := by
    unfold leastPlaces
    omega
  rw [leading, if_pos h, unitsPerOne_eq, hplaces, Nat.shiftLeft_eq, Nat.mul_assoc, ← Nat.pow_add]

theorem leading_of_lt {n : ℕ} (h : 52 < n.log2) : leading n = divHalfEven n (2 ^ (n.log2 - 52)) := by
  rw [leading, if_neg (Nat.not_le.mpr h), Nat.shiftLeft_eq, Nat.one_mul]

theorem two_pow_log2_add {n : ℕ} (h : 52 < n.log2) :
    2 ^ (1022 + n.log2) = 2 ^ (n.log2 - 52) * unitsPerOne := by
  have hplaces : 1022 + n.log2 = n.log2 - 52 + leastPlaces := by
    unfold leastPlaces
    omega
  rw [unitsPerOne_eq, ← Nat.pow_add, hplaces]

theorem divHalfEven_le (n d : ℕ) : divHalfEven n d ≤ n / d + 1 := by
  unfold divHalfEven
  dsimp only
  split <;> omega

/-- The leading one is in its place, or has carried. -/
theorem leading_mem {n : ℕ} (hn : n ≠ 0) : 2 ^ 52 ≤ leading n ∧ leading n ≤ 2 ^ 53 := by
  have hlow := Nat.log2_self_le hn
  have hhigh := Nat.lt_log2_self (n := n)
  by_cases h : n.log2 ≤ 52
  · have hpow : 2 ^ n.log2 * 2 ^ (52 - n.log2) = 2 ^ 52 := by
      rw [← Nat.pow_add, Nat.add_sub_cancel' h]
    have hmul := Nat.mul_le_mul_right (2 ^ (52 - n.log2)) hlow
    have hmul' := Nat.mul_le_mul_right (2 ^ (52 - n.log2)) hhigh.le
    rw [Nat.pow_succ] at hmul'
    rw [leading, if_pos h, Nat.shiftLeft_eq]
    constructor <;> linarith
  · obtain ⟨places, hplaces⟩ : ∃ places, n.log2 = 52 + places := ⟨n.log2 - 52, by omega⟩
    have hpos : 0 < 2 ^ places := Nat.two_pow_pos places
    rw [hplaces, Nat.pow_add] at hlow
    rw [hplaces, Nat.pow_succ, Nat.pow_add] at hhigh
    rw [leading_of_lt (Nat.not_le.mp h), hplaces, Nat.add_sub_cancel_left]
    constructor
    · exact ((Nat.le_div_iff_mul_le hpos).mpr hlow).trans (le_divHalfEven _ _)
    · refine (divHalfEven_le _ _).trans ((Nat.div_lt_iff_lt_mul hpos).mpr ?_)
      linarith

theorem log2_natAbs_le {a : Int64} (h : a.toInt ≠ 0) : a.toInt.natAbs.log2 ≤ 63 := by
  have hlow := a.le_toInt
  have hhigh := a.toInt_lt
  have hlt : a.toInt.natAbs < 2 ^ 64 := by omega
  exact Nat.le_of_lt_succ ((Nat.log2_lt (by omega)).mpr hlt)

/-- The parts of the number of an integer. -/
theorem parts_ofInt64 {a : Int64} (h : a.toInt ≠ 0) :
    (ofInt64 a).exponent ≠ 2047 ∧
      (ofInt64 a).units =
        a.toInt.sign * (leading a.toInt.natAbs * 2 ^ (1022 + a.toInt.natAbs.log2) : ℕ) ∧
      (2 ∣ leading a.toInt.natAbs → 2 ∣ (ofInt64 a).significand) := by
  have hn : a.toInt.natAbs ≠ 0 := Int.natAbs_ne_zero.mpr h
  have hlog := log2_natAbs_le h
  obtain ⟨hlow, hhigh⟩ := leading_mem hn
  obtain ⟨he, hmag, heven⟩ := parts_of_carry (decide (a.toInt < 0))
    (show 1022 + a.toInt.natAbs.log2 < 2045 by omega) hlow hhigh
  have hneg := isNegative_signed (decide (a.toInt < 0))
    (show (1022 + a.toInt.natAbs.log2) * 2 ^ 52 + leading a.toInt.natAbs < 2 ^ 63 by omega)
  rw [ofInt64_eq_signed, patternOfNat_eq hn, units_eq, hneg, hmag]
  refine ⟨he, ?_, heven⟩
  rcases lt_or_gt_of_ne h with hs | hs
  · simp [hs, Int.sign_eq_neg_one_of_neg hs]
  · simp [hs.not_gt, Int.sign_eq_one_of_pos hs]

/-- **The number of an integer** is the nearest one. -/
theorem isNearest_ofInt64 (a : Int64) : (ofInt64 a).IsNearest a.toInt := by
  by_cases h : a.toInt = 0
  · have hzero : ofInt64 a = signed false 0 := by
      rw [ofInt64_eq_signed, h]
      rfl
    rw [hzero, h]
    exact isNearest_of_units_eq (by decide) (by rw [units_signed_zero, zero_mul])
  obtain ⟨he, hunits, heven⟩ := parts_ofInt64 h
  have hn : a.toInt.natAbs ≠ 0 := Int.natAbs_ne_zero.mpr h
  by_cases hlog : a.toInt.natAbs.log2 ≤ 52
  · refine isNearest_of_units_eq he ?_
    rw [hunits, leading_of_le hlog]
    push_cast
    rw [← mul_assoc, Int.sign_mul_abs]
  rw [not_le] at hlog
  have hleast : 2 ^ 52 * 2 ^ (a.toInt.natAbs.log2 - 52) ≤ a.toInt.natAbs := by
    rw [← Nat.pow_add, Nat.add_sub_cancel' hlog.le]
    exact Nat.log2_self_le hn
  have ha : a.toInt * unitsPerOne = a.toInt.sign * (a.toInt.natAbs * unitsPerOne) := by
    rw [← mul_assoc, Int.sign_mul_natAbs]
  have hsign : a.toInt.sign = 1 ∨ a.toInt.sign = -1 :=
    (lt_or_gt_of_ne h).symm.imp Int.sign_eq_one_of_pos Int.sign_eq_neg_one_of_neg
  rw [two_pow_log2_add hlog] at hunits
  have hunit : ((2 ^ (a.toInt.natAbs.log2 - 52 + leastPlaces) : ℕ) : ℤ) =
      (2 ^ (a.toInt.natAbs.log2 - 52) : ℕ) * (unitsPerOne : ℤ) := by
    rw [Nat.pow_add, unitsPerOne_eq, Nat.cast_mul]
  refine isNearest_of_units he fun y => ?_
  have hy := dvd_units_or_lt y (a.toInt.natAbs.log2 - 52 + leastPlaces)
  rw [hunit] at hy
  obtain ⟨hle, heq⟩ := divHalfEven_nearest_signed hsign unitsPerOne_pos (Nat.two_pow_pos _) hleast hy
  rw [← leading_of_lt hlog] at hle heq
  rw [hunits, ha, Nat.cast_mul, Nat.cast_mul]
  exact ⟨hle, fun hd => (heq hd).imp_right heven⟩

end RowSieve.Binary64

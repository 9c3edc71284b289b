import Mathlib.Algebra.Order.Field.Rat
import Mathlib.Data.Int.ConditionallyCompleteOrder
import Mathlib.Order.WithBot
import Mathlib.Tactic.LinearCombination
import Mathlib.Tactic.Positivity
import RowSieve.Binary64

/-!
# The exact values of floating-point numbers

`Binary64.value?` is the number that a pattern stands for, an exact rational or one of the two
infinities; it is absent where the pattern is no number.

* `Binary64.compare?_eq`: the order computed on units is that of the exact values.
* `Binary64.same_iff`: two patterns are the same exactly if their values are, where everything that
  is no number counts as one.
* `Binary64.same_eq`, `Binary64.same_iff_foldZero`: the same by the rule for numbers and the others,
  and by folding the zeros.
-/

namespace RowSieve

/-- The rational numbers between two infinities. -/
abbrev Extended := WithBot (WithTop ℚ)

/-- An integer among them. -/
def Extended.ofInt (a : ℤ) : Extended :=
  ((a : ℚ) : WithTop ℚ)

namespace Binary64

/-- The least positive number is this power of one half. -/
def leastPlaces : ℕ :=
  1074

/-- The number that a pattern stands for: sign, significand and a power of two. -/
def value? (x : Binary64) : Option Extended :=
  if x.isNaN then none
  else if x.isInfinite then some (if x.isNegative then ⊥ else (⊤ : WithTop ℚ))
  else
    let magnitude : ℚ := x.significand * 2 ^ ((x.scale : ℤ) - leastPlaces)
    some ((if x.isNegative then -magnitude else magnitude : ℚ) : WithTop ℚ)

theorem value?_eq_none_iff {x : Binary64} : x.value? = none ↔ x.isNaN = true := by
  unfold value?
  split
  · simp [*]
  · split <;> simp [*]

/-! ### The parts of a pattern -/

theorem exponent_le (x : Binary64) : x.exponent ≤ 2047 := by
  unfold exponent; omega

theorem fraction_lt (x : Binary64) : x.fraction < 2 ^ 52 := by
  unfold fraction; omega

theorem significand_lt (x : Binary64) : x.significand < 2 ^ 53 := by
  have := x.fraction_lt
  unfold significand
  split <;> omega

/-- A pattern is determined by its sign, exponent and fraction. -/
theorem ext_parts {x y : Binary64} (hs : x.isNegative = y.isNegative)
    (he : x.exponent = y.exponent) (hf : x.fraction = y.fraction) : x = y := by
  obtain ⟨x⟩ := x
  obtain ⟨y⟩ := y
  have hx := x.toNat_lt
  have hy := y.toNat_lt
  simp only [isNegative, exponent, fraction, decide_eq_decide] at hs he hf
  have : x.toNat = y.toNat := by omega
  rw [UInt64.toNat_inj.mp this]

/-- The absolute value in units. -/
def magnitude (x : Binary64) : ℕ :=
  x.significand * 2 ^ x.scale

theorem units_eq (x : Binary64) :
    x.units = if x.isNegative then -(x.magnitude : ℤ) else x.magnitude := by
  unfold units magnitude
  simp only [Nat.shiftLeft_eq]

theorem magnitude_eq_zero_iff {x : Binary64} : x.magnitude = 0 ↔ x.isZero = true := by
  unfold magnitude isZero significand
  by_cases he : x.exponent = 0 <;> simp [he]

/-- **The magnitude determines exponent and fraction**, the significand of a larger exponent having
its leading one. -/
theorem magnitude_inj {x y : Binary64} (h : x.magnitude = y.magnitude) :
    x.exponent = y.exponent ∧ x.fraction = y.fraction := by
  wlog hle : x.scale ≤ y.scale with hsymm
  · obtain ⟨he, hf⟩ := hsymm h.symm (Nat.le_of_not_le hle)
    exact ⟨he.symm, hf.symm⟩
  have hfx := x.fraction_lt
  have hfy := y.fraction_lt
  rcases Nat.lt_or_eq_of_le hle with hlt | heq
  · -- the significand of `y` has its leading one, and at least one more power of two
    exfalso
    have hy : y.exponent ≠ 0 := by unfold scale at hlt; omega
    have hsy : 2 ^ 52 ≤ y.significand := by
      rw [significand, if_neg hy]; omega
    have hpow : 2 ^ x.scale * 2 ≤ 2 ^ y.scale := by
      rw [← Nat.pow_succ]
      exact Nat.pow_le_pow_right (by omega) hlt
    have hlow : x.significand * 2 ^ x.scale < 2 ^ 53 * 2 ^ x.scale :=
      Nat.mul_lt_mul_of_pos_right x.significand_lt (Nat.two_pow_pos _)
    have hhigh : 2 ^ 52 * (2 ^ x.scale * 2) ≤ y.significand * 2 ^ y.scale :=
      Nat.mul_le_mul hsy hpow
    unfold magnitude at h
    omega
  · have hsig : x.significand = y.significand := by
      unfold magnitude at h
      rw [heq] at h
      exact Nat.eq_of_mul_eq_mul_right (Nat.two_pow_pos _) h
    unfold significand at hsig
    unfold scale at heq
    split at hsig <;> split at hsig <;> omega

/-- **Only the two zeros share their units.** -/
theorem units_inj {x y : Binary64} (h : x.units = y.units) : x = y ∨ (x.isZero ∧ y.isZero) := by
  rw [units_eq, units_eq] at h
  have hmag : x.magnitude = y.magnitude := by
    split at h <;> split at h <;> omega
  by_cases hz : x.magnitude = 0
  · exact .inr ⟨magnitude_eq_zero_iff.mp hz, magnitude_eq_zero_iff.mp (hmag ▸ hz)⟩
  · obtain ⟨he, hf⟩ := magnitude_inj hmag
    refine .inl (ext_parts ?_ he hf)
    cases hx : x.isNegative <;> cases hy : y.isNegative <;> simp [hx, hy] at h ⊢ <;> omega

/-! ### Units and values -/

/-- The places that the units of the infinities take before their leading one. -/
def limitPlaces : ℕ :=
  2098

/-- The units of the infinities, beyond those of all finite numbers. -/
def unitsLimit : ℤ :=
  (2 ^ limitPlaces : ℕ)

theorem unitsLimit_pos : 0 < unitsLimit :=
  Int.natCast_pos.mpr (Nat.two_pow_pos limitPlaces)

/-- The value of a number of units. -/
def ofUnits (u : ℤ) : Extended :=
  if u ≤ -unitsLimit then ⊥ else if unitsLimit ≤ u then (⊤ : WithTop ℚ)
  else ((u / 2 ^ leastPlaces : ℚ) : WithTop ℚ)

/-- More units, larger value. -/
theorem ofUnits_strictMonoOn : StrictMonoOn ofUnits (Set.Icc (-unitsLimit) unitsLimit) := by
  have hpos := unitsLimit_pos
  rintro u ⟨hu, hu'⟩ v ⟨hv, hv'⟩ huv
  have hu₂ : ¬ unitsLimit ≤ u := by omega
  have hv₁ : ¬ v ≤ -unitsLimit := by omega
  unfold ofUnits
  rw [if_neg hu₂, if_neg hv₁]
  split
  · split
    · exact WithBot.bot_lt_coe _
    · exact WithBot.bot_lt_coe _
  · split
    · exact WithBot.coe_lt_coe.mpr (WithTop.coe_lt_top _)
    · refine WithBot.coe_lt_coe.mpr (WithTop.coe_lt_coe.mpr ?_)
      exact div_lt_div_of_pos_right (by exact_mod_cast huv) (by positivity)

theorem magnitude_of_isInfinite {x : Binary64} (h : x.isInfinite = true) :
    (x.magnitude : ℤ) = unitsLimit := by
  simp only [isInfinite, Bool.and_eq_true, decide_eq_true_eq] at h
  obtain ⟨he, hf⟩ := h
  have hs : x.significand = 2 ^ 52 := by
    rw [significand, he, hf]
    rfl
  rw [magnitude, hs, scale, he, ← Nat.pow_add, unitsLimit]
  congr

theorem magnitude_lt_two_pow (x : Binary64) {k : ℕ} (hk : x.scale ≤ k) :
    x.magnitude < 2 ^ (53 + k) :=
  calc x.magnitude < 2 ^ 53 * 2 ^ x.scale :=
        Nat.mul_lt_mul_of_pos_right x.significand_lt (Nat.two_pow_pos _)
    _ ≤ 2 ^ 53 * 2 ^ k := Nat.mul_le_mul_left _ (Nat.pow_le_pow_right (by omega) hk)
    _ = 2 ^ (53 + k) := (Nat.pow_add _ _ _).symm

theorem magnitude_lt {x : Binary64} (hn : x.isNaN = false) (hi : x.isInfinite = false) :
    (x.magnitude : ℤ) < unitsLimit := by
  have he : x.exponent ≠ 2047 := fun he => by
    simp only [isNaN, isInfinite, he] at hn hi
    simp_all
  have hle := x.exponent_le
  have hscale : x.scale ≤ 2045 := by unfold scale; omega
  have hplaces : limitPlaces = 53 + 2045 := rfl
  rw [unitsLimit, hplaces]
  exact Int.ofNat_lt.mpr (x.magnitude_lt_two_pow hscale)

theorem units_mem {x : Binary64} (hn : x.isNaN = false) :
    x.units ∈ Set.Icc (-unitsLimit) unitsLimit := by
  have hle : (x.magnitude : ℤ) ≤ unitsLimit := by
    cases hi : x.isInfinite with
    | true => exact (magnitude_of_isInfinite hi).le
    | false => exact (magnitude_lt hn hi).le
  have hpos : 0 ≤ (x.magnitude : ℤ) := Int.natCast_nonneg _
  rw [units_eq, Set.mem_Icc]
  split <;> omega

theorem mul_two_pow_div (m s k : ℕ) :
    ((m * 2 ^ s : ℕ) : ℚ) / 2 ^ k = m * 2 ^ ((s : ℤ) - k) := by
  rw [zpow_sub₀ two_ne_zero, zpow_natCast, zpow_natCast]
  push_cast
  rw [mul_div_assoc]

/-- **The value of a number is that of its units.** -/
theorem value?_eq_some {x : Binary64} (hn : x.isNaN = false) :
    x.value? = some (ofUnits x.units) := by
  have hpos := unitsLimit_pos
  have hmag : 0 ≤ (x.magnitude : ℤ) := Int.natCast_nonneg _
  rw [value?, if_neg (by simp [hn]), units_eq, ofUnits]
  cases hi : x.isInfinite with
  | true =>
      have hlim := magnitude_of_isInfinite hi
      cases hs : x.isNegative <;> simp only [if_true, if_false, Bool.false_eq_true] <;>
        rw [hlim]
      · rw [if_neg (by omega), if_pos le_rfl]
      · rw [if_pos le_rfl]
  | false =>
      have hlim := magnitude_lt hn hi
      have hvalue : ((x.magnitude : ℤ) : ℚ) / 2 ^ leastPlaces =
          x.significand * 2 ^ ((x.scale : ℤ) - leastPlaces) :=
        mul_two_pow_div x.significand x.scale leastPlaces
      cases hs : x.isNegative <;> simp only [if_true, if_false, Bool.false_eq_true]
      · rw [if_neg (by omega), if_neg (by omega), hvalue]
      · rw [if_neg (by omega), if_neg (by omega), Int.cast_neg, neg_div, hvalue]

/-! ### Order and equality -/

theorem compare_units {u v : ℤ} (hu : u ∈ Set.Icc (-unitsLimit) unitsLimit)
    (hv : v ∈ Set.Icc (-unitsLimit) unitsLimit) :
    (compare u v = .lt ↔ ofUnits u < ofUnits v) ∧ (compare u v = .eq ↔ ofUnits u = ofUnits v) :=
  ⟨by rw [compare_lt_iff_lt, ofUnits_strictMonoOn.lt_iff_lt hu hv],
    by rw [compare_eq_iff_eq, ofUnits_strictMonoOn.injOn.eq_iff hu hv]⟩

/-- **The order of two numbers** is that of their values. -/
theorem compare?_eq {x y : Binary64} (hx : x.isNaN = false) (hy : y.isNaN = false) :
    ∃ order, x.compare? y = some order ∧ ∃ left right, x.value? = some left ∧
      y.value? = some right ∧ (order = .lt ↔ left < right) ∧ (order = .eq ↔ left = right) :=
  ⟨_, by rw [compare?, hx, hy]; rfl, _, _, value?_eq_some hx, value?_eq_some hy,
    compare_units (units_mem hx) (units_mem hy)⟩

theorem unitsPerOne_eq : unitsPerOne = 2 ^ leastPlaces := by
  have h : unitsPerOne = 1 <<< leastPlaces := rfl
  rw [h, Nat.shiftLeft_eq, Nat.one_mul]

theorem unitsPerOne_pos : 0 < (unitsPerOne : ℤ) := by
  rw [unitsPerOne_eq]
  exact Int.natCast_pos.mpr (Nat.two_pow_pos leastPlaces)

/-- An integer has 64 binary places before the point, where a number may have 1024. -/
theorem mul_unitsPerOne_le : 2 ^ 64 * (unitsPerOne : ℤ) ≤ unitsLimit := by
  obtain ⟨rest, hplaces⟩ : ∃ rest, limitPlaces = 64 + rest + leastPlaces := ⟨960, rfl⟩
  rw [unitsLimit, hplaces, Nat.pow_add, Nat.cast_mul, ← unitsPerOne_eq]
  refine mul_le_mul_of_nonneg_right ?_ unitsPerOne_pos.le
  exact_mod_cast Nat.pow_le_pow_right Nat.two_pos (Nat.le_add_right 64 rest)

/-- The units of an integer are those of a finite number. -/
theorem ofUnits_ofInt64 (a : Int64) :
    a.toInt * unitsPerOne ∈ Set.Icc (-unitsLimit) unitsLimit ∧
      ofUnits (a.toInt * unitsPerOne) = Extended.ofInt a.toInt := by
  have hlow := a.le_toInt
  have hhigh := a.toInt_lt
  have hlim := mul_unitsPerOne_le
  have h₁ : -(2 ^ 64 * (unitsPerOne : ℤ)) < a.toInt * unitsPerOne := by
    rw [← neg_mul]
    exact mul_lt_mul_of_pos_right (by omega) unitsPerOne_pos
  have h₂ : a.toInt * unitsPerOne < 2 ^ 64 * (unitsPerOne : ℤ) :=
    mul_lt_mul_of_pos_right (by omega) unitsPerOne_pos
  have hone : ((unitsPerOne : ℤ) : ℚ) = 2 ^ leastPlaces := by
    rw [unitsPerOne_eq]
    push_cast
    rfl
  refine ⟨⟨by omega, by omega⟩, ?_⟩
  rw [ofUnits, if_neg (by omega), if_neg (by omega), Int.cast_mul, hone,
    mul_div_cancel_right₀ _ (pow_ne_zero _ two_ne_zero)]
  rfl

theorem isZero_zero : zero.isZero = true := by
  decide

theorem units_of_isZero {x : Binary64} (h : x.isZero = true) : x.units = 0 := by
  rw [units_eq, magnitude_eq_zero_iff.mpr h]
  simp

theorem units_canonical {x : Binary64} (h : x.isNaN = false) : x.canonical.units = x.units := by
  rw [canonical, h, if_neg Bool.false_ne_true]
  split
  next hz => rw [units_of_isZero hz, units_of_isZero isZero_zero]
  next => rfl

/-- **Two patterns are the same** exactly if their values are. -/
theorem same_iff {x y : Binary64} : x.same y = true ↔ x.value? = y.value? := by
  have hzero : zero.isNaN = false := by decide
  have hnan : nan.isNaN = true := by decide
  have hcan : ∀ {z : Binary64}, z.isNaN = false → z.canonical.isNaN = false := fun {z} hz => by
    rw [canonical, hz]
    simp only [Bool.false_eq_true, if_false]
    split
    · exact hzero
    · exact hz
  rw [same, decide_eq_true_eq]
  cases hx : x.isNaN <;> cases hy : y.isNaN
  · -- two numbers: the zeros apart, equal units come from equal patterns
    rw [value?_eq_some hx, value?_eq_some hy, Option.some.injEq,
      ofUnits_strictMonoOn.injOn.eq_iff (units_mem hx) (units_mem hy)]
    constructor
    · intro h
      rw [← units_canonical hx, ← units_canonical hy, h]
    · intro h
      rcases units_inj h with rfl | ⟨hzx, hzy⟩
      · rfl
      · simp [canonical, hx, hy, hzx, hzy]
  · have hne : x.canonical ≠ y.canonical := fun h => by
      have := hcan hx
      rw [h, canonical, if_pos hy, hnan] at this
      cases this
    rw [value?_eq_some hx, value?_eq_none_iff.mpr hy]
    simp [hne]
  · have hne : x.canonical ≠ y.canonical := fun h => by
      have := hcan hy
      rw [← h, canonical, if_pos hx, hnan] at this
      cases this
    rw [value?_eq_some hy, value?_eq_none_iff.mpr hx]
    simp [hne]
  · rw [value?_eq_none_iff.mpr hx, value?_eq_none_iff.mpr hy, canonical, canonical, if_pos hx,
      if_pos hy]
    simp

/-! ### Classes of equal patterns -/

theorem isNaN_of_isZero {x : Binary64} (h : x.isZero = true) : x.isNaN = false := by
  simp only [isZero, Bool.and_eq_true, decide_eq_true_eq] at h
  simp [isNaN, h.1]

/-- **Equal numbers** have one pattern, the zeros apart. -/
theorem equals_iff {x y : Binary64} :
    x.equals y = true ↔ (x = y ∧ x.isNaN = false) ∨ (x.isZero = true ∧ y.isZero = true) := by
  have hunits : x.units = y.units ↔ x = y ∨ (x.isZero = true ∧ y.isZero = true) := by
    refine ⟨units_inj, ?_⟩
    rintro (rfl | ⟨hx, hy⟩)
    · rfl
    · rw [units_of_isZero hx, units_of_isZero hy]
  rw [equals, decide_eq_true_eq, compare?]
  cases hx : x.isNaN <;> cases hy : y.isNaN
  · simp [hunits]
  · have hne : x ≠ y := fun h => by simp [h, hy] at hx
    have hz : y.isZero ≠ true := fun h => by simp [isNaN_of_isZero h] at hy
    simp [hne, hz]
  all_goals
    have hz : x.isZero ≠ true := fun h => by simp [isNaN_of_isZero h] at hx
    simp [hz]

theorem foldZero_eq (x : Binary64) : x.foldZero = if x.isZero then zero else x := by
  have hiff : x.equals zero = true ↔ x.isZero = true := by
    rw [equals_iff]
    refine ⟨?_, fun h => .inr ⟨h, isZero_zero⟩⟩
    rintro (⟨rfl, -⟩ | ⟨h, -⟩)
    · exact isZero_zero
    · exact h
  simp only [foldZero, hiff]

/-- **Folding the zeros** identifies them and nothing else. -/
theorem foldZero_inj {x y : Binary64} :
    x.foldZero = y.foldZero ↔ x = y ∨ (x.isZero = true ∧ y.isZero = true) := by
  rw [foldZero_eq, foldZero_eq]
  cases hx : x.isZero <;> cases hy : y.isZero
  · simp
  · have hne : x ≠ zero := fun h => by simp [h, isZero_zero] at hx
    have hne' : x ≠ y := fun h => by simp [h, hy] at hx
    simp [hne, hne']
  · have hne : zero ≠ y := fun h => by simp [← h, isZero_zero] at hy
    have hne' : x ≠ y := fun h => by simp [← h, hx] at hy
    simp [hne, hne']
  · simp

theorem isNaN_foldZero (x : Binary64) : x.foldZero.isNaN = x.isNaN := by
  rw [foldZero_eq]
  split
  next h => rw [isNaN_of_isZero h]; decide
  next => rfl

theorem canonical_eq (x : Binary64) : x.canonical = if x.isNaN then nan else x.foldZero := by
  rw [foldZero_eq, canonical]

/-- **The classes of equality**: the patterns that are not numbers, and the rest by what is left of
them when the zeros are folded. -/
theorem same_iff_foldZero {x y : Binary64} :
    x.same y = true ↔ (x.isNaN = true ∧ y.isNaN = true) ∨ x.foldZero = y.foldZero := by
  have hnan : nan.isNaN = true := by decide
  have hne : ∀ {a b : Binary64}, a.isNaN = true → b.isNaN = false → a ≠ b.foldZero :=
    fun ha hb h => by simp [h, isNaN_foldZero, hb] at ha
  have hfold : x.foldZero = y.foldZero → x.isNaN = y.isNaN := fun h => by
    rw [← isNaN_foldZero x, h, isNaN_foldZero]
  rw [same, decide_eq_true_eq, canonical_eq, canonical_eq]
  cases hx : x.isNaN <;> cases hy : y.isNaN
  · simp
  · simp [(hne hnan hx).symm, mt hfold (by simp [hx, hy])]
  · simp [hne hnan hy, mt hfold (by simp [hx, hy])]
  · simp

/-- **Equality by rule**: all that is not a number is one, and numbers are compared as numbers. -/
theorem same_eq (x y : Binary64) : x.same y = if x.isNaN then y.isNaN else x.equals y := by
  rw [Bool.eq_iff_iff, same_iff_foldZero]
  cases hx : x.isNaN with
  | true =>
      have hfold : x.foldZero = y.foldZero → y.isNaN = true := fun h => by
        rw [← isNaN_foldZero, ← h, isNaN_foldZero, hx]
      simpa using hfold
  | false =>
      simp only [Bool.false_eq_true, false_and, false_or, if_false, foldZero_inj, equals_iff, hx,
        and_true]

end Binary64

end RowSieve

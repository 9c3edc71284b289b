import Mathlib.Order.BooleanAlgebra.Basic
import RowSieve.Proofs.Mask

/-!
# The Boolean algebra of masks

The masks over so many rows are the choices of rows, whatever operations they come from: packing a
choice in words, with a count beside it, adds nothing and loses nothing.  So they form a Boolean
algebra, and its operations are those of masks.

* `Bits.WellFormed.eq_iff`: equal words, lengths and counts are equal bits.
* `Mask.Selection`: the masks over so many rows, a Boolean algebra.
* `Mask.Selection.and_eq`, `or_eq`, `not_eq`: what the operations of masks come to in it.
* `Mask.boolean_algebra`: the laws, and when combining fails.
-/

namespace RowSieve

namespace Bits

/-- **Equal words, lengths and counts** are equal bits. -/
theorem WellFormed.eq_iff {left right : Bits} (hl : left.WellFormed) (hr : right.WellFormed) :
    left = right ↔ left.length = right.length ∧
      ∀ index < left.length, left.get index = right.get index := by
  constructor
  · rintro rfl
    exact ⟨rfl, fun _ _ => rfl⟩
  · rintro ⟨hlen, hget⟩
    refine hl.ext_test hr hlen fun index hi => ?_
    have hg := hget index hi
    rw [get_of_lt hi, get_of_lt (hlen ▸ hi)] at hg
    exact Except.ok.inj hg

theorem WellFormed.count_eq_countP {bits : Bits} (h : bits.WellFormed) :
    bits.count = (List.range bits.length).countP bits.test := by
  rw [h.count, count_toList, List.countP_eq_length_filter]

/-- What both conditions hold of, and what either does, is as much as each holds of. -/
theorem countP_and_add_countP_or {α : Type} (p q : α → Bool) (values : List α) :
    values.countP (fun value => p value && q value) +
        values.countP (fun value => p value || q value) =
      values.countP p + values.countP q := by
  induction values with
  | nil => rfl
  | cons value rest ih =>
      cases hp : p value <;> cases hq : q value <;> simp [hp, hq] <;> omega

end Bits

namespace Mask

/-! ### Combining fails when the lengths differ -/

section Failing

variable {left right : Mask} {abort : Abort DataError}

/-- **Two masks** are combined without fail, unless their lengths differ. -/
theorem combine_eq_error_iff {op : Bits → Bits → Except Fault Bits}
    (hop : left.length = right.length → ∃ bits, op left.bits right.bits = .ok bits) :
    combine op left right = .error abort ↔ left.length ≠ right.length ∧
      abort = .error (.lengthMismatch "filter mask" left.length right.length) := by
  by_cases hl : left.length = right.length
  · obtain ⟨bits, hbits⟩ := hop hl
    rw [combine_eq_ok hl hbits]
    refine iff_of_false ?_ fun h => h.1 hl
    intro h
    cases h
  · rw [combine, if_neg hl, and_iff_right hl, Except.error.injEq, eq_comm]

theorem and_eq_error_iff (hl : left.bits.WellFormed) (hr : right.bits.WellFormed) :
    left.and right = .error abort ↔ left.length ≠ right.length ∧
      abort = .error (.lengthMismatch "filter mask" left.length right.length) :=
  combine_eq_error_iff fun h => (Bits.and_eq_ok hl hr h).imp fun _ => And.left

theorem or_eq_error_iff (hl : left.bits.WellFormed) (hr : right.bits.WellFormed) :
    left.or right = .error abort ↔ left.length ≠ right.length ∧
      abort = .error (.lengthMismatch "filter mask" left.length right.length) :=
  combine_eq_error_iff fun h => (Bits.or_eq_ok hl hr h).imp fun _ => And.left

end Failing

/-! ### The algebra -/

/-- **The masks over so many rows.** -/
structure Selection (total : Nat) where
  mask : Mask
  wellFormed : mask.bits.WellFormed
  length : mask.length = total

namespace Selection

variable {total : Nat}

theorem ext_test {left right : Selection total}
    (h : ∀ row < total, left.mask.bits.test row = right.mask.bits.test row) : left = right := by
  obtain ⟨⟨bits⟩, hwf, rfl⟩ := left
  obtain ⟨⟨others⟩, hwf', hlen⟩ := right
  have hbits : bits = others := hwf.ext_test hwf' hlen.symm h
  subst hbits
  rfl

/-- A selection is a choice for every row. -/
def choice : Selection total ≃ (Fin total → Bool) where
  toFun selection row := selection.mask.bits.test row
  invFun chosen := ⟨.ofList (List.ofFn chosen), Bits.wellFormed_ofList _,
    (Bits.length_ofList _).trans List.length_ofFn⟩
  left_inv selection := ext_test fun row hr => by
    show (Bits.ofList (List.ofFn fun row : Fin total => selection.mask.bits.test row)).test row = _
    rw [Bits.test_ofList (by simpa using hr), List.getElem_ofFn]
  right_inv chosen := funext fun row => by
    show (Bits.ofList (List.ofFn chosen)).test row = chosen row
    rw [Bits.test_ofList (by simp), List.getElem_ofFn]

instance : BooleanAlgebra (Selection total) :=
  choice.booleanAlgebra

section Operations

variable {left right : Selection total} {row : Nat}

theorem test_choice_symm (chosen : Fin total → Bool) (hr : row < total) :
    (choice.symm chosen).mask.bits.test row = chosen ⟨row, hr⟩ :=
  congrFun (choice.apply_symm_apply chosen) ⟨row, hr⟩

theorem test_inf (hr : row < total) : (left ⊓ right).mask.bits.test row =
    (left.mask.bits.test row && right.mask.bits.test row) :=
  test_choice_symm _ hr

theorem test_sup (hr : row < total) : (left ⊔ right).mask.bits.test row =
    (left.mask.bits.test row || right.mask.bits.test row) :=
  test_choice_symm _ hr

theorem test_compl (hr : row < total) :
    (leftᶜ).mask.bits.test row = !left.mask.bits.test row :=
  test_choice_symm _ hr

theorem test_bot (hr : row < total) : (⊥ : Selection total).mask.bits.test row = false :=
  test_choice_symm _ hr

theorem test_top (hr : row < total) : (⊤ : Selection total).mask.bits.test row = true :=
  test_choice_symm _ hr

variable (left right)

/-- **The rows selected by both** are the meet. -/
theorem and_eq : left.mask.and right.mask = .ok (left ⊓ right).mask := by
  have hlen : left.mask.length = right.mask.length := left.length.trans right.length.symm
  obtain ⟨bits, hand, hwf, hl, htest, -⟩ := Bits.and_eq_ok left.wellFormed right.wellFormed hlen
  have hmeet : (⟨⟨bits⟩, hwf, hl.trans left.length⟩ : Selection total) = left ⊓ right :=
    ext_test fun row hr => by rw [test_inf hr, htest]
  rw [← hmeet]
  exact combine_eq_ok hlen hand

/-- **The rows selected by either** are the join. -/
theorem or_eq : left.mask.or right.mask = .ok (left ⊔ right).mask := by
  have hlen : left.mask.length = right.mask.length := left.length.trans right.length.symm
  obtain ⟨bits, hor, hwf, hl, htest, -⟩ := Bits.or_eq_ok left.wellFormed right.wellFormed hlen
  have hjoin : (⟨⟨bits⟩, hwf, hl.trans left.length⟩ : Selection total) = left ⊔ right :=
    ext_test fun row hr => by rw [test_sup hr, htest]
  rw [← hjoin]
  exact combine_eq_ok hlen hor

/-- **The rows not selected** are the complement. -/
theorem not_eq : left.mask.not = (leftᶜ).mask := by
  have hcompl : (⟨left.mask.not, Bits.wellFormed_not left.wellFormed, left.length⟩ :
      Selection total) = leftᶜ :=
    ext_test fun row hr => by
      have hr' : row < left.mask.bits.length := hr.trans_eq left.length.symm
      show left.mask.bits.not.test row = _
      rw [test_compl hr, Bits.test_not left.wellFormed, decide_eq_true hr', Bool.true_and]
  rw [← hcompl]

theorem none_eq : (⟨.allClear total⟩ : Mask) = (⊥ : Selection total).mask := by
  have hbot : (⟨⟨.allClear total⟩, Bits.wellFormed_allClear total, rfl⟩ : Selection total) = ⊥ :=
    ext_test fun row hr => by rw [test_bot hr, Bits.test_allClear]
  rw [← hbot]

theorem all_eq : Mask.all total = (⊤ : Selection total).mask := by
  have htop : (⟨.all total, Bits.wellFormed_allSet total, rfl⟩ : Selection total) = ⊤ :=
    ext_test fun row hr => by
      rw [test_top hr]
      exact (Bits.test_allSet total row).trans (decide_eq_true hr)
  rw [← htop]

theorem count_eq : left.mask.count = (List.range total).countP left.mask.bits.test := by
  have hcount := left.wellFormed.count_eq_countP
  rwa [show left.mask.bits.length = total from left.length] at hcount

/-- What both select and what either selects is as much as each selects. -/
theorem count_inf_add_count_sup :
    (left ⊓ right).mask.count + (left ⊔ right).mask.count =
      left.mask.count + right.mask.count := by
  simp only [count_eq, ← Bits.countP_and_add_countP_or left.mask.bits.test right.mask.bits.test]
  refine congrArg₂ (· + ·) ?_ ?_
  · exact List.countP_congr fun row hr => by rw [test_inf (List.mem_range.mp hr)]
  · exact List.countP_congr fun row hr => by rw [test_sup (List.mem_range.mp hr)]

end Operations

end Selection

/-! ### The laws -/

/-- **The laws of Boolean algebra**, of three masks. -/
structure BooleanLaws (a b c : Mask) : Prop where
  and_comm : a.and b = b.and a
  or_comm : a.or b = b.or a
  and_assoc : (a.and b >>= fun both => both.and c) = (b.and c >>= fun both => a.and both)
  or_assoc : (a.or b >>= fun either => either.or c) = (b.or c >>= fun either => a.or either)
  /-- Each of the two distributes over the other. -/
  and_or : (b.or c >>= fun either => a.and either) =
    (a.and b >>= fun first => a.and c >>= fun second => first.or second)
  or_and : (b.and c >>= fun both => a.or both) =
    (a.or b >>= fun first => a.or c >>= fun second => first.and second)
  /-- Each of the two absorbs the other. -/
  and_absorbs : (a.or b >>= fun either => a.and either) = .ok a
  or_absorbs : (a.and b >>= fun both => a.or both) = .ok a
  not_not : a.not.not = a
  not_and : Mask.not <$> a.and b = a.not.or b.not
  not_or : Mask.not <$> a.or b = a.not.and b.not
  and_not : a.and a.not = .ok ⟨.allClear a.length⟩
  or_not : a.or a.not = .ok (.all a.length)
  count : ∃ both either, a.and b = .ok both ∧ a.or b = .ok either ∧
    both.count + either.count = a.count + b.count

theorem Selection.booleanLaws {total : Nat} (a b c : Selection total) :
    BooleanLaws a.mask b.mask c.mask where
  and_comm := by rw [and_eq, and_eq, inf_comm]
  or_comm := by rw [or_eq, or_eq, sup_comm]
  and_assoc := by
    rw [and_eq, and_eq]
    show (a ⊓ b).mask.and c.mask = a.mask.and (b ⊓ c).mask
    rw [and_eq, and_eq, inf_assoc]
  or_assoc := by
    rw [or_eq, or_eq]
    show (a ⊔ b).mask.or c.mask = a.mask.or (b ⊔ c).mask
    rw [or_eq, or_eq, sup_assoc]
  and_or := by
    rw [or_eq, and_eq, and_eq]
    show a.mask.and (b ⊔ c).mask = (a ⊓ b).mask.or (a ⊓ c).mask
    rw [and_eq, or_eq, inf_sup_left]
  or_and := by
    rw [and_eq, or_eq, or_eq]
    show a.mask.or (b ⊓ c).mask = (a ⊔ b).mask.and (a ⊔ c).mask
    rw [or_eq, and_eq, sup_inf_left]
  and_absorbs := by
    rw [or_eq]
    show a.mask.and (a ⊔ b).mask = .ok a.mask
    rw [and_eq, inf_sup_self]
  or_absorbs := by
    rw [and_eq]
    show a.mask.or (a ⊓ b).mask = .ok a.mask
    rw [or_eq, sup_inf_self]
  not_not := by rw [not_eq, not_eq, compl_compl]
  not_and := by
    rw [and_eq, not_eq, not_eq, or_eq, ← compl_inf, ← not_eq]
    rfl
  not_or := by
    rw [or_eq, not_eq, not_eq, and_eq, ← compl_sup, ← not_eq]
    rfl
  and_not := by rw [not_eq, and_eq, inf_compl_eq_bot, a.length, none_eq]
  or_not := by rw [not_eq, or_eq, sup_compl_eq_top, a.length, all_eq]
  count := ⟨_, _, a.and_eq b, a.or_eq b, a.count_inf_add_count_sup b⟩

/-- **Masks form a Boolean algebra.**  Whatever operations two bit strings come from, they are equal
when they have the same length and the same bits; combining masks fails exactly when their lengths
differ; and over masks of one length the laws hold. -/
theorem boolean_algebra {a b c : Mask} (ha : a.bits.Built) (hb : b.bits.Built)
    (hc : c.bits.Built) :
    (a.bits = b.bits ↔ a.length = b.length ∧
        ∀ index < a.length, a.bits.get index = b.bits.get index) ∧
      (∀ abort, a.and b = .error abort ↔ a.length ≠ b.length ∧
        abort = .error (.lengthMismatch "filter mask" a.length b.length)) ∧
      (∀ abort, a.or b = .error abort ↔ a.length ≠ b.length ∧
        abort = .error (.lengthMismatch "filter mask" a.length b.length)) ∧
      (a.length = b.length → b.length = c.length → BooleanLaws a b c) := by
  have hawf := ha.wellFormed
  have hbwf := hb.wellFormed
  refine ⟨hawf.eq_iff hbwf, fun _ => and_eq_error_iff hawf hbwf,
    fun _ => or_eq_error_iff hawf hbwf, fun hab hbc => ?_⟩
  exact Selection.booleanLaws ⟨a, hawf, hab.trans hbc⟩ ⟨b, hbwf, hbc⟩ ⟨c, hc.wellFormed, rfl⟩

/-- All but the last of 65 rows, the only one in its word. -/
def allButLast : Mask :=
  .ofList (List.replicate 64 true ++ [false])

/-- The last of 65 rows. -/
def last : Mask :=
  .ofList (List.replicate 64 false ++ [true])

/-- Nothing is left behind in the second word by a complement. -/
theorem boolean_algebra_allButLast :
    allButLast.not.bits = last.bits ∧ BooleanLaws allButLast last (.all 65) ∧
      allButLast.and (.all 64) = .error (.error (.lengthMismatch "filter mask" 65 64)) := by
  have hfirst : allButLast.bits.Built := .ofList _
  have hlast : last.bits.Built := .ofList _
  have hall : ∀ rows, (Mask.all rows).bits.Built := .allSet
  obtain ⟨heq, -⟩ := boolean_algebra (a := allButLast.not) hfirst.not hlast hlast
  obtain ⟨-, -, -, hlaws⟩ := boolean_algebra hfirst hlast (hall 65)
  obtain ⟨-, hand, -⟩ := boolean_algebra hfirst (hall 64) (hall 64)
  exact ⟨heq.mpr ⟨by decide, by decide +kernel⟩, hlaws (by decide) (by decide),
    (hand _).mpr ⟨by decide, by decide⟩⟩

end Mask

end RowSieve

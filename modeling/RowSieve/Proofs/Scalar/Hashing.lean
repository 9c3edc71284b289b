import RowSieve.Proofs.Scalar

/-!
# Values in sets

A value hands over to a hasher its form and what it holds, with the two zeros folded into one.
Equality folds the zeros as well, and besides it takes all that is not a number for one.  So equal
values leave any hasher in one state as long as the hasher does not tell apart what is not a number,
and a set then finds a value exactly if an equal one has been inserted.

* `Scalar.beq_equivalence`: equality of values is an equivalence relation.
* `Scalar.feed_congr`: equal values are handed over alike.
* `Scalar.newPositions_eq`: what is new when values are inserted into a set one by one.
* `Scalar.sets_respect_equality`: the three together, for every hasher.
-/

namespace RowSieve

/-- Whatever is not a number is taken in alike.  Of equal numbers nothing needs to be asked: with
the zeros folded they have one pattern (`Binary64.foldZero_inj`). -/
def Hasher.NaNsAlike (hasher : Hasher) : Prop :=
  ∀ (state : hasher.State) (x y : Binary64), x.isNaN = true → y.isNaN = true →
    hasher.float state x = hasher.float state y

theorem Hasher.nansAlike_mixing : Hasher.mixing.NaNsAlike := fun state x y hx hy => by
  show mixHash state x.canonical.bits = mixHash state y.canonical.bits
  rw [Binary64.canonical_eq, Binary64.canonical_eq, if_pos hx, if_pos hy]

namespace Scalar

/-! ### Equality -/

/-- **Equality of values** is an equivalence relation. -/
theorem beq_equivalence : Equivalence fun left right : Scalar => (left == right) = true :=
  ⟨fun _ => beq_iff.mpr rfl, fun h => beq_iff.mpr (beq_iff.mp h).symm,
    fun hl hr => beq_iff.mpr ((beq_iff.mp hl).trans (beq_iff.mp hr))⟩

instance : EquivBEq Scalar where
  rfl := beq_equivalence.refl _
  symm := beq_equivalence.symm
  trans := beq_equivalence.trans

/-! ### What is new -/

/-- No value before this position is equal to the one there. -/
def isFirst (values : List Scalar) (position : Nat) : Bool :=
  values[position]?.all fun value => !(values.take position).contains value

/-- Neither the set nor an earlier value of the list has an equal of the value at this position. -/
def isNew {hasher : Hasher} (seen : HashedSet hasher) (values : List Scalar) (position : Nat) :
    Bool :=
  values[position]?.all fun value =>
    !(seen.contains value || (values.take position).contains value)

theorem isNew_empty (hasher : Hasher) (values : List Scalar) :
    isNew (∅ : HashedSet hasher) values = isFirst values := by
  funext position
  simp only [isNew, isFirst, Std.HashSet.contains_empty, Bool.false_or]

/-- One insertion, and the rest of the list into what it leaves. -/
theorem newPositions_cons {hasher : Hasher} (seen : HashedSet hasher) (start : Nat)
    (value : Scalar) (rest : List Scalar) :
    newPositions seen start (value :: rest) =
      if seen.contains value then newPositions (seen.insert value) (start + 1) rest
      else start :: newPositions (seen.insert value) (start + 1) rest := by
  have hstep : seen.containsThenInsert value = (seen.contains value, seen.insert value) :=
    Prod.ext Std.HashSet.containsThenInsert_fst Std.HashSet.containsThenInsert_snd
  rw [newPositions, hstep]

/-! ### Hashing -/

section Hashing

variable {hasher : Hasher} (h : hasher.NaNsAlike)
include h

/-- **Equal values are handed over alike.**  Only floating-point numbers are equal without being
the same; their zeros are folded before the hasher sees them, and the rest is its promise. -/
theorem feed_congr {left right : Scalar} (heq : (left == right) = true) (state : hasher.State) :
    left.feed hasher state = right.feed hasher state := by
  obtain rfl | ⟨x, y, rfl, rfl, hxy⟩ := eq_or_floats (beq_iff.mp heq)
  · rfl
  · show hasher.float _ x.foldZero = hasher.float _ y.foldZero
    obtain ⟨hx, hy⟩ | hfold := Binary64.same_iff_foldZero.mp (Binary64.same_iff.mpr hxy)
    · exact h _ _ _ (x.isNaN_foldZero.trans hx) (y.isNaN_foldZero.trans hy)
    · rw [hfold]

theorem lawfulHashable : @LawfulHashable Scalar _ (hashable hasher) :=
  letI := hashable hasher
  ⟨fun _ _ heq => congrArg hasher.finish (feed_congr h heq hasher.start)⟩

/-! ### Insertion -/

/-- A set finds a value if it found one before or the value inserted last is equal. -/
theorem contains_insert (seen : HashedSet hasher) (value other : Scalar) :
    (seen.insert value).contains other = (value == other || seen.contains other) :=
  letI := hashable hasher
  haveI := lawfulHashable h
  Std.HashSet.contains_insert

/-- One insertion moves the first value of the list into the set. -/
theorem isNew_cons_succ (seen : HashedSet hasher) (value : Scalar) (rest : List Scalar)
    (position : Nat) :
    isNew seen (value :: rest) (position + 1) = isNew (seen.insert value) rest position := by
  unfold isNew
  rw [List.getElem?_cons_succ]
  congr 1
  funext other
  rw [contains_insert h, List.take_succ_cons, List.contains_cons, BEq.comm (a := other),
    Bool.or_left_comm, Bool.or_assoc]

/-- The new positions of a list are its first one, unless the set knows the value there, and those
of the rest one further on. -/
theorem filter_isNew_cons (seen : HashedSet hasher) (value : Scalar) (rest : List Scalar) :
    (List.range (value :: rest).length).filter (isNew seen (value :: rest)) =
      (if seen.contains value then [] else [0]) ++
        ((List.range rest.length).filter (isNew (seen.insert value) rest)).map Nat.succ := by
  have hzero : isNew seen (value :: rest) 0 = !seen.contains value := by simp [isNew]
  have hsucc : isNew seen (value :: rest) ∘ Nat.succ = isNew (seen.insert value) rest :=
    funext (isNew_cons_succ h seen value rest)
  rw [List.length_cons, List.range_succ_eq_map, List.filter_cons, List.filter_map, hsucc, hzero]
  cases seen.contains value <;> rfl

/-- **What is new** when a list is inserted value by value, the positions counted from a start. -/
theorem newPositions_eq (seen : HashedSet hasher) (start : Nat) (values : List Scalar) :
    newPositions seen start values =
      ((List.range values.length).filter (isNew seen values)).map (start + ·) := by
  induction values generalizing seen start with
  | nil => rfl
  | cons value rest ih =>
      have hshift : (start + ·) ∘ Nat.succ = (start + 1 + ·) := by
        funext position
        show start + (position + 1) = start + 1 + position
        omega
      rw [newPositions_cons, ih, filter_isNew_cons h, List.map_append, List.map_map, hshift]
      cases seen.contains value <;> rfl

end Hashing

/-! ### Equality, hashing and sets -/

/-- **Values in sets.**  Equality of values is an equivalence relation; on floating-point patterns
it takes all that is not a number for one and compares the rest as numbers.  Equal values leave any
hasher that does not tell apart what is not a number in one state, whatever it has taken in before.
And inserting any values one after another into a set that is empty at first finds as new exactly
those without an equal one before them. -/
theorem sets_respect_equality (hasher : Hasher) (h : hasher.NaNsAlike) :
    (Equivalence fun left right : Scalar => (left == right) = true) ∧
      (∀ x y : Binary64, (float x == float y) = if x.isNaN then y.isNaN else x.equals y) ∧
      (∀ left right : Scalar, (left == right) = true →
        (∀ state, left.feed hasher state = right.feed hasher state) ∧
          left.hashCode hasher = right.hashCode hasher) ∧
      ∀ values : List Scalar,
        firstOccurrencesBy hasher values =
          (List.range values.length).filter (isFirst values) := by
  refine ⟨beq_equivalence, Binary64.same_eq, fun left right heq => ?_, fun values => ?_⟩
  · have hfeed := feed_congr h heq
    exact ⟨hfeed, congrArg hasher.finish (hfeed hasher.start)⟩
  · have hstart : (0 + · : Nat → Nat) = id := funext Nat.zero_add
    rw [firstOccurrencesBy, newPositions_eq h, isNew_empty, hstart, List.map_id]

/-- Both zeros, two patterns that are not numbers, the integer zero, and a null twice. -/
def spellings : List Scalar :=
  [.float .zero, .float ⟨0x8000000000000000⟩, .float .nan, .float ⟨0xFFF0000000000001⟩, .int 0,
    .null, .null]

/-- Of the zeros and of what is not a number the first is new, and so is the first null. -/
theorem sets_spellings :
    Hasher.mixing.NaNsAlike ∧
      (float .zero).hashCode .mixing = (float ⟨0x8000000000000000⟩).hashCode .mixing ∧
      (float .nan).hashCode .mixing = (float ⟨0xFFF0000000000001⟩).hashCode .mixing ∧
      firstOccurrences spellings = [0, 2, 4, 5] := by
  obtain ⟨-, -, halike, hsets⟩ := sets_respect_equality .mixing Hasher.nansAlike_mixing
  exact ⟨Hasher.nansAlike_mixing, (halike _ _ (by decide)).2, (halike _ _ (by decide)).2,
    (hsets spellings).trans (by decide)⟩

end Scalar

end RowSieve

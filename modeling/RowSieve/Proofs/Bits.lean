import Mathlib.Data.Bool.Count
import Mathlib.Data.List.Count
import RowSieve.Proofs.Bits.Cursor

/-!
# Bit strings stand for lists of bits

`Bits.WellFormed` is what every operation on bit strings keeps: as many words as the length needs,
only zeros past the length, and the right count.

* `Bits.WellFormed.ext`: a well-formed bit string is determined by its bits.
* `wellFormed_ofList`, `set_eq_ok`, `zipWords_eq_ok`, `wellFormed_not`, …: the operations keep the
  invariant, each beside the equation that says what it does to `Bits.toList`.
* `Bits.WellFormed.indices_eq`: the indices of the ones, ascending, and as many as are counted.
-/

namespace RowSieve

/-! ### Bits of words -/

namespace Bits

/-- The bit of a row of words; past the end there are no ones. -/
def bitAt (words : Array UInt64) (index : Nat) : Bool :=
  (words[index / 64]?).elim false (Word.test · (index % 64))

theorem test_eq_bitAt (bits : Bits) (index : Nat) : bits.test index = bitAt bits.words index := by
  unfold test bitAt
  cases bits.words[index / 64]? <;> rfl

theorem bitAt_eq {words : Array UInt64} {index : Nat} {word : UInt64}
    (h : words[index / 64]? = some word) : bitAt words index = Word.test word (index % 64) := by
  simp [bitAt, h]

theorem bitAt_of_le {words : Array UInt64} {index : Nat} (h : 64 * words.size ≤ index) :
    bitAt words index = false := by
  have hw : words[index / 64]? = none := Array.getElem?_eq_none (by omega)
  simp [bitAt, hw]

/-- Equally many words with the same bits are the same words. -/
theorem words_ext {left right : Array UInt64} (hs : left.size = right.size)
    (h : ∀ index, bitAt left index = bitAt right index) : left = right := by
  refine Array.ext hs fun position hl hr => Word.ext_test fun place hp => ?_
  have hd : (64 * position + place) / 64 = position := by omega
  have hm : (64 * position + place) % 64 = place := by omega
  have key := h (64 * position + place)
  rw [bitAt_eq (by rw [hd, Array.getElem?_eq_getElem hl]),
    bitAt_eq (by rw [hd, Array.getElem?_eq_getElem hr]), hm] at key
  exact key

/-- Changing one word changes the bits of that word. -/
theorem bitAt_modify (words : Array UInt64) (position : Nat) (f : UInt64 → UInt64) (index : Nat) :
    bitAt (words.modify position f) index =
      if position = index / 64 ∧ position < words.size then
        Word.test (f (words[index / 64]?.getD 0)) (index % 64)
      else bitAt words index := by
  unfold bitAt
  rw [Array.getElem?_modify]
  by_cases hp : position = index / 64
  · subst hp
    by_cases hs : index / 64 < words.size
    · simp [hs]
    · simp [hs]
  · simp [hp]

theorem bitAt_push_zero (words : Array UInt64) (index : Nat) :
    bitAt (words.push 0) index = bitAt words index := by
  unfold bitAt
  rw [Array.getElem?_push]
  split
  next h => simp [h]
  next => rfl

/-- Trimming keeps the bits below the length. -/
theorem bitAt_trim {length : Nat} {words : Array UInt64} (hs : words.size = wordCount length)
    (index : Nat) :
    bitAt (trim length words) index = (decide (index < length) && bitAt words index) := by
  unfold trim
  rw [bitAt_modify]
  have hw : wordCount length = (length + 63) / 64 := rfl
  split
  next h =>
    obtain ⟨hp, hlt⟩ := h
    have hget := Array.getElem?_eq_getElem (hp ▸ hlt : index / 64 < words.size)
    have htail : Word.test (tailMask length) (index % 64) = decide (index < length) := by
      simp only [Word.test, tailMask, BitVec.getLsbD_ushiftRight, BitVec.getLsbD_allOnes]
      exact decide_eq_decide.mpr (by omega)
    rw [bitAt_eq hget, hget, Option.getD_some, Word.test_and, htail, Bool.and_comm]
  next h =>
    by_cases hi : index < length
    · simp [hi]
    · rw [bitAt_of_le (by omega)]
      simp

/-! ### The invariant -/

/-- What every operation on bit strings keeps. -/
structure WellFormed (bits : Bits) : Prop where
  size : bits.words.size = wordCount bits.length
  tail : ∀ index, bits.length ≤ index → bits.test index = false
  count : bits.count = bits.toList.count true

@[simp] theorem length_toList (bits : Bits) : bits.toList.length = bits.length := by
  simp [toList]

theorem getElem?_toList (bits : Bits) {index : Nat} (h : index < bits.length) :
    bits.toList[index]? = some (bits.test index) := by
  simp [toList, h]

theorem getElem_toList (bits : Bits) {index : Nat} (h : index < bits.toList.length) :
    bits.toList[index] = bits.test index := by
  simp [toList]

theorem get_of_lt {bits : Bits} {index : Nat} (h : index < bits.length) :
    bits.get index = .ok (bits.test index) :=
  if_pos h

theorem get_eq_ok {bits : Bits} {index : Nat} {value : Bool} :
    bits.get index = .ok value ↔ index < bits.length ∧ bits.test index = value := by
  rw [get]
  split
  next hi => simp [hi]
  next hi => simp [hi]

/-- The bits are these, if they are so one by one. -/
theorem toList_eq {bits : Bits} {values : List Bool} (hl : bits.length = values.length)
    (h : ∀ index (hi : index < values.length), bits.test index = values[index]) :
    bits.toList = values :=
  List.ext_getElem (by simpa using hl) fun index _ hi => by rw [getElem_toList, h index hi]

/-- **A well-formed bit string is determined by its bits.** -/
theorem WellFormed.ext {left right : Bits} (hl : left.WellFormed) (hr : right.WellFormed)
    (h : left.toList = right.toList) : left = right := by
  have hlen : left.length = right.length := by simpa using congrArg List.length h
  have hwords : left.words = right.words := by
    refine words_ext (by rw [hl.size, hr.size, hlen]) fun index => ?_
    rw [← test_eq_bitAt, ← test_eq_bitAt]
    by_cases hi : index < left.length
    · have := getElem?_toList left hi
      rw [h, getElem?_toList right (hlen ▸ hi)] at this
      exact (Option.some.inj this).symm
    · rw [hl.tail index (by omega), hr.tail index (by omega)]
  have hcount : left.count = right.count := by rw [hl.count, hr.count, h]
  cases left; cases right; simp_all

theorem WellFormed.ext_test {left right : Bits} (hl : left.WellFormed) (hr : right.WellFormed)
    (hlen : left.length = right.length)
    (h : ∀ index < left.length, left.test index = right.test index) : left = right := by
  refine hl.ext hr (toList_eq (hlen.trans right.length_toList.symm) fun index hi => ?_)
  rw [length_toList] at hi
  rw [getElem_toList, h index (hlen ▸ hi)]

/-! ### The operations -/

theorem wellFormed_empty : empty.WellFormed where
  size := rfl
  tail := fun _ _ => rfl
  count := rfl

@[simp] theorem toList_empty : empty.toList = [] := rfl

theorem test_allClear (length index : Nat) : (allClear length).test index = false := by
  rw [test_eq_bitAt, bitAt]
  cases h : (allClear length).words[index / 64]? with
  | none => rfl
  | some word =>
      obtain rfl : word = 0 := by
        simp only [allClear] at h
        rw [Array.getElem?_replicate] at h
        split at h <;> simp_all
      simp

@[simp] theorem toList_allClear (length : Nat) :
    (allClear length).toList = List.replicate length false :=
  toList_eq (by simp [allClear]) fun index _ => by simp [test_allClear]

theorem wellFormed_allClear (length : Nat) : (allClear length).WellFormed where
  size := by simp [allClear]
  tail := fun index _ => test_allClear length index
  count := by rw [toList_allClear]; simp [allClear, List.count_replicate]

theorem test_allSet (length index : Nat) : (allSet length).test index = decide (index < length) := by
  rw [test_eq_bitAt, allSet, bitAt_trim (by simp)]
  by_cases hi : index < length
  · have hlt : index / 64 < wordCount length := by
      have : wordCount length = (length + 63) / 64 := rfl
      omega
    have hget : (Array.replicate (wordCount length) (~~~0 : UInt64))[index / 64]? = some (~~~0) := by
      rw [Array.getElem?_replicate, if_pos hlt]
    rw [bitAt_eq hget, Word.test_not, Word.test_zero]
    simp [Nat.mod_lt]
  · simp [hi]

@[simp] theorem toList_allSet (length : Nat) :
    (allSet length).toList = List.replicate length true :=
  toList_eq (by simp [allSet]) fun index hi => by
    simpa [test_allSet] using hi

theorem wellFormed_allSet (length : Nat) : (allSet length).WellFormed where
  size := by simp [allSet, trim]
  tail := fun index hi => by
    rw [test_allSet]
    exact decide_eq_false (Nat.not_lt.mpr hi)
  count := by rw [toList_allSet]; simp [allSet]

/-- Pushing a bit leaves the others alone. -/
theorem test_push {bits : Bits} (h : bits.WellFormed) (value : Bool) (index : Nat) :
    (bits.push value).test index = if index = bits.length then value else bits.test index := by
  have hsize := h.size
  have hw : wordCount bits.length = (bits.length + 63) / 64 := rfl
  rw [test_eq_bitAt, push]
  -- the words after making room for one more bit
  generalize hr : (if bits.length % 64 = 0 then bits.words.push 0 else bits.words) = words
  have hroom : ∀ i, bitAt words i = bits.test i := fun i => by
    rw [test_eq_bitAt, ← hr]
    split
    · exact bitAt_push_zero _ _
    · rfl
  have hlt : bits.length / 64 < words.size := by
    rw [← hr]
    split
    · rw [Array.size_push]; omega
    · omega
  cases value with
  | false =>
      simp only [Bool.false_eq_true, if_false, hroom]
      split
      next hi => rw [hi, h.tail _ (Nat.le_refl _)]
      next => rfl
  | true =>
      simp only [if_true]
      rw [bitAt_modify]
      by_cases hp : bits.length / 64 = index / 64
      · have hget := Array.getElem?_eq_getElem (hp ▸ hlt)
        have hold := hroom index
        rw [bitAt_eq hget] at hold
        rw [if_pos ⟨hp, hlt⟩, hget, Option.getD_some, Word.test_or, hold, Word.test_single]
        by_cases he : index = bits.length
        · subst he; simp [Nat.mod_lt]
        · have hne : bits.length % 64 ≠ index % 64 := by omega
          simp [he, hne]
      · have he : index ≠ bits.length := fun he => hp (he ▸ rfl)
        rw [if_neg fun hc => hp hc.1, hroom, if_neg he]

theorem length_push (bits : Bits) (value : Bool) : (bits.push value).length = bits.length + 1 := by
  cases value <;> simp [push]

theorem count_push (bits : Bits) (value : Bool) :
    (bits.push value).count = bits.count + if value then 1 else 0 := by
  cases value <;> simp [push]

theorem toList_push {bits : Bits} (h : bits.WellFormed) (value : Bool) :
    (bits.push value).toList = bits.toList ++ [value] := by
  refine toList_eq (by simp [length_push]) fun index hi => ?_
  rw [test_push h]
  simp only [List.length_append, length_toList, List.length_singleton] at hi
  by_cases he : index = bits.length
  · subst he; simp
  · rw [if_neg he, List.getElem_append_left (by simp; omega), getElem_toList]

theorem wellFormed_push {bits : Bits} (h : bits.WellFormed) (value : Bool) :
    (bits.push value).WellFormed where
  size := by
    have hs := h.size
    have hw : wordCount bits.length = (bits.length + 63) / 64 := rfl
    have hw' : wordCount (bits.length + 1) = (bits.length + 1 + 63) / 64 := rfl
    have hsize : (bits.push value).words.size =
        (if bits.length % 64 = 0 then bits.words.push 0 else bits.words).size := by
      cases value <;> simp [push]
    rw [length_push, hsize]
    split
    · rw [Array.size_push]; omega
    · omega
  tail := fun index hi => by
    rw [length_push] at hi
    rw [test_push h, if_neg (by omega), h.tail index (by omega)]
  count := by
    rw [toList_push h, count_push, h.count]
    cases value <;> simp

/-- Pushing bits one after another appends them. -/
theorem foldl_push {bits : Bits} (h : bits.WellFormed) (values : List Bool) :
    (values.foldl push bits).WellFormed ∧
      (values.foldl push bits).toList = bits.toList ++ values := by
  induction values generalizing bits with
  | nil => simp [h]
  | cons value rest ih =>
      have ⟨hwf, hlist⟩ := ih (wellFormed_push h value)
      exact ⟨hwf, by simp [hlist, toList_push h]⟩

theorem wellFormed_ofList (values : List Bool) : (ofList values).WellFormed :=
  (foldl_push wellFormed_empty values).1

@[simp] theorem toList_ofList (values : List Bool) : (ofList values).toList = values := by
  rw [ofList, (foldl_push wellFormed_empty values).2, toList_empty, List.nil_append]

theorem test_ofList {values : List Bool} {index : Nat} (h : index < values.length) :
    (ofList values).test index = values[index] := by
  rw [← getElem_toList _ (by simpa using h)]
  simp

@[simp] theorem length_ofList (values : List Bool) : (ofList values).length = values.length := by
  rw [← length_toList, toList_ofList]

/-- Every well-formed bit string is built from its bits. -/
theorem WellFormed.ofList_toList {bits : Bits} (h : bits.WellFormed) :
    ofList bits.toList = bits :=
  (wellFormed_ofList _).ext h (toList_ofList _)

/-! ### Changing one bit -/

theorem set_eq_error {bits : Bits} {index : Nat} {value : Bool} (h : bits.length ≤ index) :
    bits.set index value = .error (.bitOutOfRange index bits.length) := by
  rw [set, if_neg (by omega)]

/-- **One word changed at the place of one bit**, which gets another value there. -/
theorem modify_word {bits : Bits} (h : bits.WellFormed) {index : Nat} (hi : index < bits.length)
    (value : Bool) (hold : bits.test index = !value) (f : UInt64 → UInt64) (count : Nat)
    (hf : ∀ word place, place < 64 → Word.test (f word) place =
      if place = index % 64 then value else Word.test word place)
    (hcount : count + (if value then 0 else 1) = bits.count + (if value then 1 else 0)) :
    (Bits.mk (bits.words.modify (index / 64) f) bits.length count).WellFormed ∧
      (Bits.mk (bits.words.modify (index / 64) f) bits.length count).toList =
        bits.toList.set index value := by
  have hsize := h.size
  have hw : wordCount bits.length = (bits.length + 63) / 64 := rfl
  have hlt : index / 64 < bits.words.size := by omega
  generalize hb : Bits.mk (bits.words.modify (index / 64) f) bits.length count = changed
  have hlen : changed.length = bits.length := by subst hb; rfl
  -- a bit of another word is untouched, and one of the same word has another place in it
  have htest : ∀ i, changed.test i = if i = index then value else bits.test i := fun i => by
    subst hb
    rw [test_eq_bitAt, bitAt_modify, test_eq_bitAt]
    by_cases hp : index / 64 = i / 64
    · have hget := Array.getElem?_eq_getElem (hp ▸ hlt)
      rw [if_pos ⟨hp, hlt⟩, hget, Option.getD_some, hf _ _ (Nat.mod_lt _ (by omega)),
        bitAt_eq hget]
      by_cases he : i = index
      · rw [if_pos he, if_pos (by rw [he])]
      · rw [if_neg he, if_neg (by omega)]
    · have he : i ≠ index := fun he => hp (by rw [he])
      rw [if_neg fun hc => hp hc.1, if_neg he]
  have hi' : index < bits.toList.length := by simpa using hi
  have hlist : changed.toList = bits.toList.set index value :=
    toList_eq (by simp [hlen]) fun i hi' => by
      rw [htest, List.getElem_set, getElem_toList]
      by_cases he : i = index
      · rw [if_pos he, if_pos he.symm]
      · rw [if_neg he, if_neg (Ne.symm he)]
  refine ⟨⟨?_, fun i hi' => ?_, ?_⟩, hlist⟩
  · subst hb
    simpa using hsize
  · have hne : i ≠ index := fun he => Nat.not_lt.mpr (hlen ▸ hi') (he ▸ hi)
    rw [htest, if_neg hne, h.tail i (hlen ▸ hi')]
  · have hc : changed.count = count := by subst hb; rfl
    rw [hc, hlist, List.count_set hi', getElem_toList, hold, ← h.count]
    have hpos : value = false → 0 < bits.count := fun hv => by
      rw [h.count, List.count_pos_iff, List.mem_iff_getElem]
      exact ⟨index, hi', by rw [getElem_toList, hold, hv]; rfl⟩
    cases value <;> simp at hcount hpos ⊢ <;> omega

/-- Setting a bit inside the string succeeds and changes that bit only. -/
theorem set_eq_ok {bits : Bits} (h : bits.WellFormed) {index : Nat} (hi : index < bits.length)
    (value : Bool) :
    ∃ changed, bits.set index value = .ok changed ∧ changed.WellFormed ∧
      changed.length = bits.length ∧ changed.toList = bits.toList.set index value := by
  have hi' : index < bits.toList.length := by simpa using hi
  have hsame : bits.test index = value → bits.toList.set index value = bits.toList := fun ht => by
    rw [← ht, ← getElem_toList bits hi', List.set_getElem_self]
  rw [set, if_pos hi]
  cases ht : bits.test index <;> cases value
  · exact ⟨_, rfl, h, rfl, (hsame ht).symm⟩
  · obtain ⟨hwf, hlist⟩ := modify_word h hi true ht (· ||| Word.single (index % 64))
      (bits.count + 1)
      (fun word place _ => by
        rw [Word.test_or, Word.test_single]
        by_cases he : index % 64 = place
        · subst he; simp [Nat.mod_lt]
        · simp [he, Ne.symm he]) (by simp)
    exact ⟨_, rfl, hwf, rfl, hlist⟩
  · have hpos : 0 < bits.count := by
      rw [h.count, List.count_pos_iff, List.mem_iff_getElem]
      exact ⟨index, hi', by rw [getElem_toList, ht]⟩
    obtain ⟨hwf, hlist⟩ := modify_word h hi false ht (· &&& ~~~Word.single (index % 64))
      (bits.count - 1)
      (fun word place hp => by
        rw [Word.test_and, Word.test_not, Word.test_single]
        by_cases he : index % 64 = place
        · subst he; simp [Nat.mod_lt]
        · simp [he, hp, Ne.symm he]) (by simp; omega)
    exact ⟨_, rfl, hwf, rfl, hlist⟩
  · exact ⟨_, rfl, h, rfl, (hsame ht).symm⟩

/-! ### The indices of the ones -/

/-- The ones of a row of words, numbered from a word on. -/
theorem onesFrom_eq_filter (words : List UInt64) (start : Nat) :
    onesFrom words start =
      ((List.range (64 * words.length)).filter (bitAt words.toArray)).map (64 * start + ·) := by
  induction words generalizing start with
  | nil => simp
  | cons word rest ih =>
      -- the ones of the first word, then those of the rest, 64 places further on
      have hfirst : (List.range 64).filter (bitAt (word :: rest).toArray) = Word.ones word := by
        rw [Word.ones_eq]
        refine List.filter_congr fun place hp => ?_
        rw [List.mem_range] at hp
        have hget : (word :: rest).toArray[place / 64]? = some word := by
          simp [Nat.div_eq_of_lt hp]
        rw [bitAt_eq hget, Nat.mod_eq_of_lt hp]
      have hrest : bitAt (word :: rest).toArray ∘ (64 + ·) = bitAt rest.toArray := by
        funext i
        have hd : (64 + i) / 64 = i / 64 + 1 := by omega
        have hm : (64 + i) % 64 = i % 64 := by omega
        simp [bitAt, hd, hm]
      have hmap : (fun i => 64 * start + i) ∘ (64 + ·) = (64 * (start + 1) + ·) := by
        funext i; simp only [Function.comp_apply]; omega
      have hlen : 64 * (word :: rest).length = 64 + 64 * rest.length := by
        rw [List.length_cons]; omega
      rw [onesFrom_cons, ih, hlen, List.range_add, List.filter_append,
        List.filter_map, hfirst, hrest, List.map_append, List.map_map, hmap]

/-- The ones are found below the end of the last word. -/
theorem indices_eq_filter (bits : Bits) :
    bits.indices = (List.range (64 * bits.words.size)).filter bits.test := by
  have hbits : bits.test = bitAt bits.words := funext bits.test_eq_bitAt
  rw [hbits, indices_eq_onesFrom, onesFrom_eq_filter]
  simp

theorem length_indices (bits : Bits) :
    bits.indices.length = (bits.words.toList.flatMap Word.ones).length := by
  rw [indices_eq_onesFrom, length_onesFrom]

/-- A row of words that is zero past the length has its ones below the length. -/
theorem indices_eq_of_tail {bits : Bits} (hs : bits.words.size = wordCount bits.length)
    (ht : ∀ index, bits.length ≤ index → bits.test index = false) :
    bits.indices = (List.range bits.length).filter bits.test := by
  have hw : wordCount bits.length = (bits.length + 63) / 64 := rfl
  obtain ⟨rest, hrest⟩ : ∃ rest, 64 * bits.words.size = bits.length + rest :=
    ⟨64 * bits.words.size - bits.length, by omega⟩
  have hnil : ((List.range rest).map (bits.length + ·)).filter bits.test = [] := by
    rw [List.filter_eq_nil_iff]
    intro index hi
    obtain ⟨offset, -, rfl⟩ := List.mem_map.mp hi
    rw [ht _ (Nat.le_add_right _ _)]
    exact Bool.false_ne_true
  rw [indices_eq_filter, hrest, List.range_add, List.filter_append, hnil, List.append_nil]

theorem count_toList (bits : Bits) :
    bits.toList.count true = ((List.range bits.length).filter bits.test).length := by
  rw [toList, List.count_eq_countP, List.countP_map, List.countP_eq_length_filter]
  congr 2
  funext index
  simp

/-- **The indices of the ones**, ascending, of a well-formed bit string. -/
theorem WellFormed.indices_eq {bits : Bits} (h : bits.WellFormed) :
    bits.indices = (List.range bits.length).filter bits.test :=
  indices_eq_of_tail h.size h.tail

theorem WellFormed.length_indices {bits : Bits} (h : bits.WellFormed) :
    bits.indices.length = bits.count := by
  rw [h.indices_eq, h.count, count_toList]

theorem WellFormed.mem_indices {bits : Bits} (h : bits.WellFormed) {index : Nat} :
    index ∈ bits.indices ↔ index < bits.length ∧ bits.test index = true := by
  rw [h.indices_eq, List.mem_filter, List.mem_range]

theorem WellFormed.pairwise_indices {bits : Bits} (h : bits.WellFormed) :
    bits.indices.Pairwise (· < ·) := by
  rw [h.indices_eq]
  exact List.pairwise_lt_range.filter _

/-- A well-formed bit string is determined by its length and its ones. -/
theorem WellFormed.eq_of_indices {left right : Bits} (hl : left.WellFormed) (hr : right.WellFormed)
    (hlen : left.length = right.length) (h : left.indices = right.indices) : left = right := by
  refine hl.ext_test hr hlen fun index hi => ?_
  have hmem : index ∈ left.indices ↔ index ∈ right.indices := by rw [h]
  rw [hl.mem_indices, hr.mem_indices, ← hlen, and_iff_right hi, and_iff_right hi] at hmem
  exact Bool.eq_iff_iff.mpr hmem

theorem WellFormed.ext_indices {left right : Bits} (hl : left.WellFormed) (hr : right.WellFormed)
    (hlen : left.length = right.length)
    (h : ∀ index, index ∈ left.indices ↔ index ∈ right.indices) : left = right :=
  hl.eq_of_indices hr hlen (hl.pairwise_indices.eq_of_mem_iff hr.pairwise_indices h)

/-- Setting a bit to one adds its index to those of the ones. -/
theorem set_true_eq_ok {bits : Bits} (h : bits.WellFormed) {index : Nat}
    (hi : index < bits.length) :
    ∃ changed, bits.set index true = .ok changed ∧ changed.WellFormed ∧
      changed.length = bits.length ∧
        ∀ other, other ∈ changed.indices ↔ other = index ∨ other ∈ bits.indices := by
  obtain ⟨changed, hs, hwf, hl, hlist⟩ := set_eq_ok h hi true
  refine ⟨changed, hs, hwf, hl, fun other => ?_⟩
  rw [hwf.mem_indices, h.mem_indices, hl]
  have htest : ∀ ho : other < bits.length,
      changed.test other = true ↔ other = index ∨ bits.test other = true := fun ho => by
    have hc : other < changed.toList.length := by simpa [hl] using ho
    rw [← getElem_toList changed hc]
    simp only [hlist, List.getElem_set, getElem_toList]
    by_cases he : index = other
    · simp [he]
    · simp [he, Ne.symm he]
  constructor
  · rintro ⟨ho, ht⟩
    exact ((htest ho).mp ht).imp_right fun hb => ⟨ho, hb⟩
  · rintro (rfl | ⟨ho, hb⟩)
    · exact ⟨hi, (htest hi).mpr (.inl rfl)⟩
    · exact ⟨ho, (htest ho).mpr (.inr hb)⟩

/-- Set the bits at these indices to one, in turn. -/
def raise (bits : Bits) (indices : List Nat) : Except Fault Bits :=
  indices.foldlM (fun raised index => raised.set index true) bits

/-- Raising bits adds their indices to those of the ones. -/
theorem WellFormed.raise_eq_ok {bits : Bits} (h : bits.WellFormed) {indices : List Nat}
    (hi : ∀ index ∈ indices, index < bits.length) :
    ∃ raised, bits.raise indices = .ok raised ∧ raised.WellFormed ∧
      raised.length = bits.length ∧
        ∀ other, other ∈ raised.indices ↔ other ∈ indices ∨ other ∈ bits.indices := by
  induction indices generalizing bits with
  | nil => exact ⟨bits, rfl, h, rfl, fun other => by simp⟩
  | cons index rest ih =>
      obtain ⟨changed, hset, hwf, hl, hmem⟩ := set_true_eq_ok h (hi index (List.mem_cons_self ..))
      obtain ⟨raised, hraise, hwf', hl', hmem'⟩ := ih hwf fun other ho =>
        hl ▸ hi other (List.mem_cons_of_mem _ ho)
      refine ⟨raised, ?_, hwf', hl'.trans hl, fun other => ?_⟩
      · rw [raise, List.foldlM_cons, hset]
        exact hraise
      · rw [hmem', hmem, List.mem_cons]
        tauto

theorem indices_allSet (length : Nat) : (allSet length).indices = List.range length := by
  rw [(wellFormed_allSet length).indices_eq]
  refine List.filter_eq_self.mpr fun index hi => ?_
  rw [test_allSet]
  exact decide_eq_true (List.mem_range.mp hi)

theorem indices_allClear (length : Nat) : (allClear length).indices = [] := by
  rw [(wellFormed_allClear length).indices_eq]
  exact List.filter_eq_nil_iff.mpr fun index _ => by simp [test_allClear]

/-! ### Combining and complementing -/

/-- Words combined bit by bit combine the lists of bits. -/
theorem zipWords_eq_ok {op : UInt64 → UInt64 → UInt64} {f : Bool → Bool → Bool}
    (hop : ∀ left right place, Word.test (op left right) place =
      f (Word.test left place) (Word.test right place)) (hf : f false false = false)
    {left right : Bits} (hl : left.WellFormed) (hr : right.WellFormed)
    (h : left.length = right.length) :
    ∃ bits, zipWords op left right = .ok bits ∧ bits.WellFormed ∧ bits.length = left.length ∧
      (∀ index, bits.test index = f (left.test index) (right.test index)) ∧
      bits.toList = List.zipWith f left.toList right.toList := by
  rw [zipWords, if_pos h]
  refine ⟨_, rfl, ?_⟩
  generalize hb : Bits.mk (Array.zipWith op left.words right.words) left.length
    ((Array.zipWith op left.words right.words).toList.flatMap Word.ones).length = bits
  have hsize : bits.words.size = wordCount bits.length := by
    subst hb
    simp [hl.size, hr.size, h]
  have htest : ∀ index, bits.test index = f (left.test index) (right.test index) := fun index => by
    subst hb
    have heq : left.words.size = right.words.size := by rw [hl.size, hr.size, h]
    simp only [test_eq_bitAt]
    unfold bitAt
    by_cases hi : index / 64 < left.words.size
    · have hi' : index / 64 < right.words.size := heq ▸ hi
      simp [Array.getElem?_zipWith, Array.getElem?_eq_getElem hi, Array.getElem?_eq_getElem hi',
        hop]
    · have hi' : ¬ index / 64 < right.words.size := heq ▸ hi
      simp [Array.getElem?_zipWith, Array.getElem?_eq_none (Nat.le_of_not_lt hi),
        Array.getElem?_eq_none (Nat.le_of_not_lt hi'), hf]
  -- nothing is trimmed: past the length both strings are zero, and so is `f` of them
  have htail : ∀ index, bits.length ≤ index → bits.test index = false := fun index hi => by
    have hi' : left.length ≤ index := by subst hb; exact hi
    rw [htest, hl.tail index hi', hr.tail index (h ▸ hi'), hf]
  refine ⟨⟨hsize, htail, ?_⟩, by subst hb; rfl, htest, ?_⟩
  · rw [count_toList, ← indices_eq_of_tail hsize htail, length_indices]
    subst hb; rfl
  · refine toList_eq (by subst hb; simp [h]) fun index hi => ?_
    rw [htest, List.getElem_zipWith, getElem_toList, getElem_toList]

theorem and_eq_ok {left right : Bits} (hl : left.WellFormed) (hr : right.WellFormed)
    (h : left.length = right.length) :
    ∃ bits, left.and right = .ok bits ∧ bits.WellFormed ∧ bits.length = left.length ∧
      (∀ index, bits.test index = (left.test index && right.test index)) ∧
      bits.toList = List.zipWith (· && ·) left.toList right.toList :=
  zipWords_eq_ok Word.test_and rfl hl hr h

theorem or_eq_ok {left right : Bits} (hl : left.WellFormed) (hr : right.WellFormed)
    (h : left.length = right.length) :
    ∃ bits, left.or right = .ok bits ∧ bits.WellFormed ∧ bits.length = left.length ∧
      (∀ index, bits.test index = (left.test index || right.test index)) ∧
      bits.toList = List.zipWith (· || ·) left.toList right.toList :=
  zipWords_eq_ok Word.test_or rfl hl hr h

theorem test_not {bits : Bits} (h : bits.WellFormed) (index : Nat) :
    bits.not.test index = (decide (index < bits.length) && !bits.test index) := by
  have hsize := h.size
  have hw : wordCount bits.length = (bits.length + 63) / 64 := rfl
  rw [test_eq_bitAt, test_eq_bitAt, not, bitAt_trim (by simpa using hsize)]
  by_cases hi : index < bits.length
  · have hget := Array.getElem?_eq_getElem (show index / 64 < bits.words.size by omega)
    rw [bitAt_eq hget, bitAt_eq (by rw [Array.getElem?_map, hget, Option.map_some]), Word.test_not]
    simp [hi, Nat.mod_lt]
  · simp [hi]

theorem toList_not {bits : Bits} (h : bits.WellFormed) :
    bits.not.toList = bits.toList.map (! ·) :=
  toList_eq (by simp [not]) fun index hi => by
    have hi' : index < bits.length := by simpa using hi
    rw [test_not h, List.getElem_map, getElem_toList, decide_eq_true hi', Bool.true_and]

theorem wellFormed_not {bits : Bits} (h : bits.WellFormed) : bits.not.WellFormed where
  size := by simpa [not, trim] using h.size
  tail := fun index hi => by
    have hi' : ¬ index < bits.length := Nat.not_lt.mpr hi
    rw [test_not h, decide_eq_false hi', Bool.false_and]
  count := by
    have hflip : (bits.toList.map (! ·)).count true = bits.toList.count false :=
      List.count_map_of_injective bits.toList (! ·) (fun _ _ => Bool.not_inj) false
    have hsum := List.count_false_add_count_true bits.toList
    rw [length_toList, ← h.count] at hsum
    rw [toList_not h, hflip]
    show bits.length - bits.count = _
    omega

/-! ### Bit strings built by the operations -/

/-- The bit strings that the operations build, the two combined ones being equally long. -/
inductive Built : Bits → Prop where
  | empty : Built empty
  | allSet (length : Nat) : Built (allSet length)
  | allClear (length : Nat) : Built (allClear length)
  | ofList (values : List Bool) : Built (ofList values)
  | push {bits : Bits} (h : Built bits) (value : Bool) : Built (bits.push value)
  | set {bits changed : Bits} {index : Nat} {value : Bool} (h : Built bits)
      (hs : bits.set index value = .ok changed) : Built changed
  | and {left right bits : Bits} (hl : Built left) (hr : Built right)
      (h : left.and right = .ok bits) : Built bits
  | or {left right bits : Bits} (hl : Built left) (hr : Built right)
      (h : left.or right = .ok bits) : Built bits
  | not {bits : Bits} (h : Built bits) : Built bits.not

theorem length_eq_of_zipWords {op : UInt64 → UInt64 → UInt64} {left right bits : Bits}
    (h : zipWords op left right = .ok bits) : left.length = right.length := by
  rw [zipWords] at h
  split at h
  · assumption
  · cases h

theorem Built.wellFormed {bits : Bits} (h : Built bits) : bits.WellFormed := by
  induction h with
  | empty => exact wellFormed_empty
  | allSet length => exact wellFormed_allSet length
  | allClear length => exact wellFormed_allClear length
  | ofList values => exact wellFormed_ofList values
  | push _ value ih => exact wellFormed_push ih value
  | @set bits _ index value _ hs ih =>
      by_cases hi : index < bits.length
      · obtain ⟨_, hok, hwf, -⟩ := set_eq_ok ih hi value
        cases hs.symm.trans hok
        exact hwf
      · rw [set_eq_error (Nat.le_of_not_lt hi)] at hs
        cases hs
  | and _ _ h ihl ihr =>
      obtain ⟨_, hok, hwf, -⟩ := and_eq_ok ihl ihr (length_eq_of_zipWords h)
      cases h.symm.trans hok
      exact hwf
  | or _ _ h ihl ihr =>
      obtain ⟨_, hok, hwf, -⟩ := or_eq_ok ihl ihr (length_eq_of_zipWords h)
      cases h.symm.trans hok
      exact hwf
  | not _ ih => exact wellFormed_not ih

/-- The invariant says exactly that a bit string can be built. -/
theorem built_iff {bits : Bits} : Built bits ↔ bits.WellFormed :=
  ⟨Built.wellFormed, fun h => h.ofList_toList ▸ .ofList bits.toList⟩

end Bits

end RowSieve

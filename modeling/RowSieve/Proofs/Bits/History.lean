import RowSieve.Proofs.Bits.InPlace

/-!
# Histories of bit strings

A bit string is made, and then changed by one operation after another.  `History` is the tree of
these operations; `History.bits` carries them out on bit strings and `History.values` on lists of
bits.

* `Bits.Denotes`: the bit string is a faithful packing of the list, and answers as the list does.
* `Bits.WellFormed.denotes`: a well-formed bit string packs the list of its bits.
* `History.refines_list`: whatever the history, the bit string packs the list; an index past the end
  is the only fault, and each operation in place ends as the history goes on.
-/

namespace RowSieve

namespace Bits

/-- **The bit string packs the list**, and answers as the list does. -/
structure Denotes (bits : Bits) (values : List Bool) : Prop where
  /-- There are as many words as the bits need. -/
  size : bits.words.size = (values.length + 63) / 64
  /-- Past the last bit the words are zero. -/
  tail : ∀ index, values.length ≤ index → bitAt bits.words index = false
  /-- The ones of the words are counted. -/
  ones : bits.count = (bits.words.toList.flatMap Word.ones).length
  toList : bits.toList = values
  length : bits.length = values.length
  get : ∀ index, bits.get index = match values[index]? with
    | some value => .ok value
    | none => .error (.bitOutOfRange index values.length)
  count : bits.count = values.count true
  isEmpty : bits.isEmpty = values.isEmpty
  isAllSet : bits.isAllSet = values.all id

theorem get_eq (bits : Bits) (index : Nat) :
    bits.get index = match bits.toList[index]? with
      | some value => .ok value
      | none => .error (.bitOutOfRange index bits.length) := by
  rw [get]
  by_cases hi : index < bits.length
  · rw [if_pos hi, bits.getElem?_toList hi]
  · have hnone : bits.toList[index]? = none :=
      List.getElem?_eq_none (bits.length_toList ▸ Nat.le_of_not_lt hi)
    rw [if_neg hi, hnone]

/-- All bits are ones when as many are counted as there are. -/
theorem WellFormed.isAllSet_eq {bits : Bits} (h : bits.WellFormed) :
    bits.isAllSet = bits.toList.all id := by
  have hcount : bits.toList.count true = bits.toList.length ↔ ∀ bit ∈ bits.toList, true = bit :=
    List.count_eq_length
  rw [isAllSet, h.count, ← bits.length_toList, Bool.eq_iff_iff, decide_eq_true_iff, hcount,
    List.all_eq_true]
  exact forall₂_congr fun _ _ => eq_comm

/-- **A well-formed bit string** packs the list of its bits. -/
theorem WellFormed.denotes {bits : Bits} (h : bits.WellFormed) {values : List Bool}
    (hv : bits.toList = values) : bits.Denotes values := by
  subst hv
  refine ⟨?_, ?_, ?_, rfl, bits.length_toList.symm, ?_, h.count, ?_, h.isAllSet_eq⟩
  · rw [bits.length_toList]
    exact h.size
  · intro index hi
    rw [← test_eq_bitAt]
    exact h.tail index (bits.length_toList ▸ hi)
  · exact (bits.length_indices.symm.trans h.length_indices).symm
  · intro index
    rw [bits.length_toList]
    exact bits.get_eq index
  · rw [isEmpty, ← bits.length_toList]
    cases bits.toList <;> rfl

end Bits

/-- How a bit string came about.  Of two that are combined the first is the one changed. -/
inductive History where
  | empty
  | allSet (length : Nat)
  | allClear (length : Nat)
  | ofList (values : List Bool)
  | push (past : History) (value : Bool)
  | set (past : History) (index : Nat) (value : Bool)
  | and (past other : History)
  | or (past other : History)
  | not (past : History)

namespace History

/-- The bit string; what ends in a fault leaves it as it was. -/
def bits : History → Bits
  | .empty => .empty
  | .allSet length => .allSet length
  | .allClear length => .allClear length
  | .ofList values => .ofList values
  | .push past value => past.bits.push value
  | .set past index value => (past.bits.set index value).toOption.getD past.bits
  | .and past other => (past.bits.and other.bits).toOption.getD past.bits
  | .or past other => (past.bits.or other.bits).toOption.getD past.bits
  | .not past => past.bits.not

/-- The list of bits; nothing happens to it past its end. -/
def values : History → List Bool
  | .empty => []
  | .allSet length => List.replicate length true
  | .allClear length => List.replicate length false
  | .ofList values => values
  | .push past value => past.values ++ [value]
  | .set past index value => past.values.set index value
  | .and past other => List.zipWith (· && ·) past.values other.values
  | .or past other => List.zipWith (· || ·) past.values other.values
  | .not past => past.values.map (! ·)

/-- Only equally long bit strings are combined. -/
def Allowed : History → Prop
  | .empty | .allSet _ | .allClear _ | .ofList _ => True
  | .push past _ | .set past _ _ | .not past => past.Allowed
  | .and past other | .or past other =>
    past.Allowed ∧ other.Allowed ∧ other.values.length = past.values.length

/-! ### One step further -/

section Steps

variable {past other : History}

theorem bits_set (h : past.bits.WellFormed ∧ past.bits.toList = past.values) (index : Nat)
    (value : Bool) :
    (past.bits.set index value = if index < past.values.length then .ok (past.set index value).bits
      else .error (.bitOutOfRange index past.values.length)) ∧
      (past.set index value).bits.WellFormed ∧
        (past.set index value).bits.toList = (past.set index value).values := by
  obtain ⟨h, hv⟩ := h
  rw [bits, values, ← hv, Bits.length_toList]
  by_cases hi : index < past.bits.length
  · obtain ⟨changed, hs, hwf, -, hlist⟩ := Bits.set_eq_ok h hi value
    rw [if_pos hi, hs]
    exact ⟨rfl, hwf, hlist⟩
  · -- nothing happens, on either side
    have hlist : past.bits.toList.length ≤ index := by simpa using hi
    rw [if_neg hi, Bits.set_eq_error (Nat.le_of_not_lt hi), List.set_eq_of_length_le hlist]
    exact ⟨rfl, h, rfl⟩

/-- Equally long strings combined word by word. -/
theorem zipWords_bits {op : UInt64 → UInt64 → UInt64} {f : Bool → Bool → Bool}
    (hop : ∀ left right place, Word.test (op left right) place =
      f (Word.test left place) (Word.test right place)) (hf : f false false = false)
    (h : past.bits.WellFormed ∧ past.bits.toList = past.values)
    (ho : other.bits.WellFormed ∧ other.bits.toList = other.values)
    (hl : other.values.length = past.values.length) :
    ∃ bits, Bits.zipWords op past.bits other.bits = .ok bits ∧ bits.WellFormed ∧
      bits.toList = List.zipWith f past.values other.values := by
  have hlength : past.bits.length = other.bits.length := by
    rw [← Bits.length_toList, ← Bits.length_toList, h.2, ho.2, hl]
  obtain ⟨bits, hbits, hwf, -, -, hlist⟩ := Bits.zipWords_eq_ok hop hf h.1 ho.1 hlength
  exact ⟨bits, hbits, hwf, by rw [hlist, h.2, ho.2]⟩

theorem bits_and (h : past.bits.WellFormed ∧ past.bits.toList = past.values)
    (ho : other.bits.WellFormed ∧ other.bits.toList = other.values)
    (hl : other.values.length = past.values.length) :
    past.bits.and other.bits = .ok (past.and other).bits ∧ (past.and other).bits.WellFormed ∧
      (past.and other).bits.toList = (past.and other).values := by
  obtain ⟨both, hand, hwf, hlist⟩ := zipWords_bits Word.test_and rfl h ho hl
  rw [bits, Bits.and, hand]
  exact ⟨rfl, hwf, hlist⟩

theorem bits_or (h : past.bits.WellFormed ∧ past.bits.toList = past.values)
    (ho : other.bits.WellFormed ∧ other.bits.toList = other.values)
    (hl : other.values.length = past.values.length) :
    past.bits.or other.bits = .ok (past.or other).bits ∧ (past.or other).bits.WellFormed ∧
      (past.or other).bits.toList = (past.or other).values := by
  obtain ⟨either, hor, hwf, hlist⟩ := zipWords_bits Word.test_or rfl h ho hl
  rw [bits, Bits.or, hor]
  exact ⟨rfl, hwf, hlist⟩

end Steps

/-! ### Whole histories -/

/-- **The bit string of a history** is well-formed, and its bits are those of the list. -/
theorem wellFormed_bits {history : History} (h : history.Allowed) :
    history.bits.WellFormed ∧ history.bits.toList = history.values := by
  induction history with
  | empty => exact ⟨Bits.wellFormed_empty, Bits.toList_empty⟩
  | allSet length => exact ⟨Bits.wellFormed_allSet length, Bits.toList_allSet length⟩
  | allClear length => exact ⟨Bits.wellFormed_allClear length, Bits.toList_allClear length⟩
  | ofList values => exact ⟨Bits.wellFormed_ofList values, Bits.toList_ofList values⟩
  | push past value ih =>
      obtain ⟨hwf, hv⟩ := ih h
      exact ⟨Bits.wellFormed_push hwf value, by rw [bits, values, Bits.toList_push hwf, hv]⟩
  | set past index value ih =>
      exact (bits_set (ih h) index value).2
  | and past other ih iho =>
      obtain ⟨hpast, hother, hl⟩ := h
      exact (bits_and (ih hpast) (iho hother) hl).2
  | or past other ih iho =>
      obtain ⟨hpast, hother, hl⟩ := h
      exact (bits_or (ih hpast) (iho hother) hl).2
  | not past ih =>
      obtain ⟨hwf, hv⟩ := ih h
      exact ⟨Bits.wellFormed_not hwf, by rw [bits, values, Bits.toList_not hwf, hv]⟩

/-- **Bit strings refine lists of bits.**  Whatever the history, the bit string packs the list and
answers as the list does.  Going on with the history, an index past the end is the only fault; and
word by word, in the string itself, every operation ends as on the whole string, the string being as
it was at a fault. -/
theorem refines_list (history : History) (h : history.Allowed) :
    history.bits.Denotes history.values ∧
      (∀ index value, history.bits.set index value =
        if index < history.values.length then .ok (history.set index value).bits
        else .error (.bitOutOfRange index history.values.length)) ∧
      (∀ other : History, other.Allowed → other.values.length = history.values.length →
        history.bits.and other.bits = .ok (history.and other).bits ∧
          history.bits.or other.bits = .ok (history.or other).bits) ∧
      (history.values.length + 63 < UInt64.size → InPlace.Agrees history.bits) := by
  have hbits := wellFormed_bits h
  refine ⟨hbits.1.denotes hbits.2, fun index value => (bits_set hbits index value).1,
    fun other ho hl => ?_, fun hsize => hbits.1.agrees ?_⟩
  · have hother := wellFormed_bits ho
    exact ⟨(bits_and hbits hother hl).1, (bits_or hbits hother hl).1⟩
  · rwa [← hbits.2, Bits.length_toList] at hsize

/-- Sixty-four ones and a zero, combined with a single one at the end and then complemented; a bit
that is not there cannot be changed. -/
def crossing : History :=
  .set (.not (.and (.push (.allSet 64) false) (.set (.allClear 65) 64 true))) 65 false

theorem refines_crossing :
    crossing.Allowed ∧ crossing.bits.Denotes (List.replicate 65 true) ∧
      InPlace.write 65 false crossing.bits = .error (.bitOutOfRange 65 65) crossing.bits := by
  have hvalues : crossing.values = List.replicate 65 true := by decide
  have hallowed : crossing.Allowed := ⟨trivial, trivial, by decide⟩
  obtain ⟨hdenotes, hset, -, hplace⟩ := refines_list crossing hallowed
  rw [hvalues] at hdenotes hset hplace
  refine ⟨hallowed, hdenotes, ?_⟩
  rw [(hplace (by decide)).write, hset]
  rfl

end History

end RowSieve

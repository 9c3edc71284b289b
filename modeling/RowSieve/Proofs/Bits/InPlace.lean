import RowSieve.Proofs.Bits
import RowSieve.Proofs.Outcome

/-!
# Bit strings changed in place

An operation on a bit string is carried out word by word, in the string itself: a word must be there
to be changed, no number leaves the range of a machine word, and the count follows the words.  Where
one of these fails the operation stops at a fault, and the string stays as it is at that moment.

`InPlace.Agrees` says that each operation ends as the one on the whole string says, so that the only
faults are those of the latter, and these are found before anything is changed.

* `InPlace.run_sweep`: what a sweep over the words has done after each of them.
* `Bits.WellFormed.agrees`: the operations agree on every well-formed bit string.
-/

namespace RowSieve

/-- A computation that changes a bit string in place.  A fault leaves it as it is at that moment. -/
abbrev InPlace := EStateM Fault Bits

namespace InPlace

/-! ### Steps -/

/-- The sum of two numbers, if a machine word holds it. -/
def add (left right : Nat) : InPlace Nat :=
  if left + right < UInt64.size then pure (left + right)
  else throw (.raised "attempt to add with overflow")

/-- The difference of two numbers, if there is one. -/
def subtract (left right : Nat) : InPlace Nat :=
  if right ≤ left then pure (left - right)
  else throw (.raised "attempt to subtract with overflow")

/-- The word at a position, which must be there. -/
def wordAt (position : Nat) : InPlace UInt64 := do
  let bits ← get
  match bits.words[position]? with
  | some word => pure word
  | none => throw (.slotOutOfRange bits.words.size position)

/-- Change the word at a position, which must be there. -/
def change (position : Nat) (f : UInt64 → UInt64) : InPlace UInt64 := do
  let word ← wordAt position
  modify fun bits => { bits with words := bits.words.modify position f }
  pure (f word)

/-- Write down the number of ones. -/
def recount (count : Nat) : InPlace Unit :=
  modify fun bits => { bits with count }

/-- Make room for a bit at an index, in a new word if it is the first of one. -/
def makeRoom (index : Nat) : InPlace Unit :=
  if index % 64 = 0 then modify fun bits => { bits with words := bits.words.push 0 }
  else pure ()

/-- Make a one of the bit at an index, which adds to the ones counted so far. -/
def raise (index count : Nat) : InPlace Unit := do
  let _ ← change (index / 64) (· ||| Word.single (index % 64))
  recount (← add count 1)

/-- Make a zero of the bit at an index, which takes from the ones counted so far. -/
def lower (index count : Nat) : InPlace Unit := do
  let _ ← change (index / 64) (· &&& ~~~Word.single (index % 64))
  recount (← subtract count 1)

/-! ### Operations -/

/-- Add a bit at the end. -/
def push (value : Bool) : InPlace Unit := do
  let ⟨_, length, count⟩ ← get
  makeRoom length
  (if value then raise length count else pure ())
  let length ← add length 1
  modify fun bits => { bits with length }

/-- The bit at an index inside the string. -/
def lookup (index : Nat) : InPlace Bool := do
  let ⟨_, length, _⟩ ← get
  if length ≤ index then throw (.bitOutOfRange index length)
  let word ← wordAt (index / 64)
  pure (Word.test word (index % 64))

/-- Change the bit at an index inside the string, and the count if the bit was another. -/
def write (index : Nat) (value : Bool) : InPlace Unit := do
  let ⟨_, length, count⟩ ← get
  if length ≤ index then throw (.bitOutOfRange index length)
  let word ← wordAt (index / 64)
  match decide (word &&& Word.single (index % 64) ≠ 0), value with
  | true, false => lower index count
  | false, true => raise index count
  | _, _ => pure ()

/-- Combine the words at the given positions with those of another string, a zero where it has none,
and add up their ones. -/
def sweep (op : UInt64 → UInt64 → UInt64) (other : Bits) (positions : List Nat) (count : Nat) :
    InPlace Nat :=
  positions.foldlM (fun count position => do
    let word ← change position (op · (other.words[position]?.getD 0))
    add count (Word.ones word).length) count

/-- Zero what the last word has past the length, and take its ones off those counted so far. -/
def trimLast (count : Nat) : InPlace Nat := do
  let ⟨words, length, _⟩ ← get
  if words.size = 0 then pure count
  else
    let last ← wordAt (words.size - 1)
    let trimmed := last &&& Bits.tailMask length
    let count ← subtract count (Word.ones (last ^^^ trimmed)).length
    let _ ← change (words.size - 1) fun _ => trimmed
    pure count

/-- Combine with another string of the same length. -/
def combine (op : UInt64 → UInt64 → UInt64) (other : Bits) : InPlace Unit := do
  let ⟨words, length, _⟩ ← get
  if length ≠ other.length then throw (.unequalLengths length other.length)
  let count ← sweep op other (List.range words.size) 0
  recount (← trimLast count)

/-- Zeros for ones and ones for zeros; what the last word then has past the length is zeroed. -/
def complement : InPlace Unit := do
  let ⟨_, length, count⟩ ← get
  modify fun bits => { bits with words := Bits.trim length (bits.words.map (~~~ ·)) }
  recount (← subtract length count)

/-! ### How steps end -/

section Steps

variable {bits : Bits}

theorem get_run : (get : InPlace Bits) bits = .ok bits bits :=
  rfl

theorem modify_run (f : Bits → Bits) : (modify f : InPlace Unit) bits = .ok () (f bits) :=
  rfl

theorem add_run {left right : Nat} (h : left + right < UInt64.size) :
    add left right bits = .ok (left + right) bits := by
  rw [add, if_pos h]
  rfl

theorem subtract_run {left right : Nat} (h : right ≤ left) :
    subtract left right bits = .ok (left - right) bits := by
  rw [subtract, if_pos h]
  rfl

theorem wordAt_run {position : Nat} {word : UInt64} (h : bits.words[position]? = some word) :
    wordAt position bits = .ok word bits := by
  rw [wordAt, bind_run get_run, h]
  rfl

theorem change_run {position : Nat} {word : UInt64} (h : bits.words[position]? = some word)
    (f : UInt64 → UInt64) :
    change position f bits = .ok (f word) { bits with words := bits.words.modify position f } := by
  rw [change, bind_run (wordAt_run h)]
  rfl

theorem makeRoom_run (index : Nat) :
    makeRoom index bits =
      .ok () { bits with words := if index % 64 = 0 then bits.words.push 0 else bits.words } := by
  rw [makeRoom]
  split <;> rfl

theorem raise_run {index count : Nat} {word : UInt64} (h : bits.words[index / 64]? = some word)
    (hc : count + 1 < UInt64.size) :
    raise index count bits =
      .ok () ⟨bits.words.modify (index / 64) (· ||| Word.single (index % 64)), bits.length,
        count + 1⟩ := by
  rw [raise, bind_run (change_run h _), bind_run (add_run hc)]
  rfl

theorem lower_run {index count : Nat} {word : UInt64} (h : bits.words[index / 64]? = some word)
    (hc : 1 ≤ count) :
    lower index count bits =
      .ok () ⟨bits.words.modify (index / 64) (· &&& ~~~Word.single (index % 64)), bits.length,
        count - 1⟩ := by
  rw [lower, bind_run (change_run h _), bind_run (subtract_run hc)]
  rfl

end Steps

/-! ### Agreement -/

/-- How a change in place ends, if this is what becomes of the string as a whole. -/
def ended (bits : Bits) : Except Fault Bits → EStateM.Result Fault Bits Unit
  | .ok next => .ok () next
  | .error broken => .error broken bits

section Agreement

variable {bits : Bits}

theorem exists_word (h : bits.WellFormed) {index : Nat} (hi : index < bits.length) :
    ∃ word, bits.words[index / 64]? = some word ∧
      bits.test index = Word.test word (index % 64) := by
  have hsize := h.size
  have hw : Bits.wordCount bits.length = (bits.length + 63) / 64 := rfl
  have hget := Array.getElem?_eq_getElem (show index / 64 < bits.words.size by omega)
  exact ⟨_, hget, by rw [Bits.test_eq_bitAt, Bits.bitAt_eq hget]⟩

theorem lookup_eq (h : bits.WellFormed) (index : Nat) :
    lookup index bits = match bits.get index with
      | .ok value => .ok value bits
      | .error broken => .error broken bits := by
  rw [lookup, bind_run get_run, Bits.get]
  dsimp only
  by_cases hi : index < bits.length
  · obtain ⟨word, hword, htest⟩ := exists_word h hi
    rw [if_neg (Nat.not_le.mpr hi), if_pos hi]
    dsimp only
    rw [htest]
    exact bind_run (wordAt_run hword)
  · rw [if_pos (Nat.le_of_not_lt hi), if_neg hi]
    rfl

/-- A word has a one at a place exactly when it and the word of that one have a one in common. -/
theorem decide_and_single (word : UInt64) (index : Nat) :
    decide (word &&& Word.single (index % 64) ≠ 0) = Word.test word (index % 64) := by
  have hplace : index % 64 < 64 := Nat.mod_lt _ (by decide)
  cases ht : Word.test word (index % 64) with
  | true =>
      refine decide_eq_true fun hz => ?_
      have hone := congrArg (Word.test · (index % 64)) hz
      simp [ht, Word.test_single, hplace] at hone
  | false =>
      refine decide_eq_false (Decidable.not_not.mpr (Word.ext_test fun place _ => ?_))
      rw [Word.test_and, Word.test_single, Word.test_zero]
      by_cases hp : index % 64 = place
      · rw [← hp, ht, Bool.false_and]
      · simp [hp]

/-- A one is counted. -/
theorem count_pos (h : bits.WellFormed) {index : Nat} (hi : index < bits.length)
    (ht : bits.test index = true) : 1 ≤ bits.count := by
  rw [h.count, Nat.one_le_iff_ne_zero, ← Nat.pos_iff_ne_zero, List.count_pos_iff,
    List.mem_iff_getElem]
  exact ⟨index, by simpa using hi, by rw [Bits.getElem_toList, ht]⟩

theorem count_le_length (h : bits.WellFormed) : bits.count ≤ bits.length := by
  rw [h.count, ← bits.length_toList]
  exact List.count_le_length

theorem push_eq (h : bits.WellFormed) (hl : bits.length + 63 < UInt64.size) (value : Bool) :
    push value bits = .ok () (bits.push value) := by
  have hsize := h.size
  have hw : Bits.wordCount bits.length = (bits.length + 63) / 64 := rfl
  have hcount := count_le_length h
  rw [push, bind_run get_run, Bits.push]
  dsimp only
  rw [bind_run (makeRoom_run bits.length)]
  generalize hr : (if bits.length % 64 = 0 then bits.words.push 0 else bits.words) = words
  have hlt : bits.length / 64 < words.size := by
    rw [← hr]
    split
    · rw [Array.size_push]; omega
    · omega
  cases value with
  | false => exact (bind_run rfl).trans (bind_run (add_run (by omega)))
  | true =>
      have hraise := @raise_run { bits with words } bits.length bits.count _
        (Array.getElem?_eq_getElem hlt) (by omega)
      exact (bind_run hraise).trans (bind_run (add_run (by omega)))

theorem write_eq (h : bits.WellFormed) (hl : bits.length + 63 < UInt64.size) (index : Nat)
    (value : Bool) : write index value bits = ended bits (bits.set index value) := by
  rw [write, bind_run get_run, Bits.set]
  dsimp only
  by_cases hi : index < bits.length
  · obtain ⟨word, hword, htest⟩ := exists_word h hi
    have hcount := count_le_length h
    rw [if_neg (Nat.not_le.mpr hi), if_pos hi, bind_run (wordAt_run hword), decide_and_single,
      ← htest]
    cases ht : bits.test index <;> cases value
    · rfl
    · exact raise_run hword (by omega)
    · exact lower_run hword (count_pos h hi ht)
    · rfl
  · rw [if_pos (Nat.le_of_not_lt hi), if_neg hi]
    rfl

theorem complement_eq (h : bits.WellFormed) : complement bits = .ok () bits.not := by
  rw [complement, bind_run get_run, Bits.not]
  dsimp only
  rw [bind_run (modify_run _)]
  exact bind_run (subtract_run (count_le_length h))

/-! ### Sweeping -/

/-- Words combined one by one with those of another string, from a position on. -/
def combined (op : UInt64 → UInt64 → UInt64) (other : Bits) (start : Nat) (words : List UInt64) :
    List UInt64 :=
  (words.zipIdx start).map fun (word, position) => op word (other.words[position]?.getD 0)

theorem combined_cons (op : UInt64 → UInt64 → UInt64) (other : Bits) (start : Nat) (word : UInt64)
    (rest : List UInt64) :
    combined op other start (word :: rest) =
      op word (other.words[start]?.getD 0) :: combined op other (start + 1) rest :=
  rfl

/-- Changing the word after those done. -/
theorem modify_append (done rest : List UInt64) (word : UInt64) (f : UInt64 → UInt64) :
    (done ++ word :: rest).modify done.length f = done ++ [f word] ++ rest := by
  induction done with
  | nil => rfl
  | cons first done ih => exact congrArg (first :: ·) ih

/-- **What a sweep has done**: the words at its positions are combined, those before them are left
alone, and the ones of the new words are added up. -/
theorem run_sweep (op : UInt64 → UInt64 → UInt64) (other : Bits) {done rest : List UInt64}
    {count : Nat} (hw : bits.words = (done ++ rest).toArray)
    (hc : count + ((combined op other done.length rest).flatMap Word.ones).length < UInt64.size) :
    sweep op other (List.range' done.length rest.length) count bits =
      .ok (count + ((combined op other done.length rest).flatMap Word.ones).length)
        { bits with words := (done ++ combined op other done.length rest).toArray } := by
  induction rest generalizing done count bits with
  | nil =>
      obtain ⟨words, length, ones⟩ := bits
      subst hw
      rfl
  | cons word rest ih =>
      have hget : bits.words[done.length]? = some word := by simp [hw]
      rw [combined_cons, List.flatMap_cons, List.length_append] at hc ⊢
      generalize hnew : op word (other.words[done.length]?.getD 0) = new at hc ⊢
      -- the first word is combined, and joins those done
      have hwords : bits.words.modify done.length (op · (other.words[done.length]?.getD 0)) =
          (done ++ [new] ++ rest).toArray := by
        rw [← Array.toList_inj, Array.toList_modify, hw, ← hnew]
        exact modify_append done rest word _
      have hchange := change_run hget (op · (other.words[done.length]?.getD 0))
      rw [hnew, hwords] at hchange
      have hstep : (change done.length (op · (other.words[done.length]?.getD 0)) >>= fun word =>
          add count (Word.ones word).length) bits =
          .ok (count + (Word.ones new).length)
            { bits with words := (done ++ [new] ++ rest).toArray } :=
        (bind_run hchange).trans (add_run (by omega))
      have hlength : (done ++ [new]).length = done.length + 1 := List.length_append
      have hrest := @ih { bits with words := (done ++ [new] ++ rest).toArray } (done ++ [new])
        (count + (Word.ones new).length) rfl (by rw [hlength]; omega)
      rw [hlength, sweep] at hrest
      rw [List.length_cons, List.range'_succ, sweep, List.foldlM_cons, bind_run hstep, hrest,
        Nat.add_assoc, List.append_assoc]
      rfl

/-- The words of two strings that have equally many, combined. -/
theorem combined_eq (op : UInt64 → UInt64 → UInt64) {left right : Bits}
    (hs : left.words.size = right.words.size) :
    (combined op right 0 left.words.toList).toArray = Array.zipWith op left.words right.words := by
  refine Array.ext (by simp [combined, hs]) fun position hl hr => ?_
  have hposition : position < right.words.size := by simpa [hs] using hr
  simp [combined, hposition]

/-- Nothing is zeroed of a well-formed string. -/
theorem trim_eq (h : bits.WellFormed) : Bits.trim bits.length bits.words = bits.words := by
  refine Bits.words_ext (by simp [Bits.trim]) fun index => ?_
  rw [Bits.bitAt_trim h.size, ← Bits.test_eq_bitAt]
  by_cases hi : index < bits.length
  · rw [decide_eq_true hi, Bool.true_and]
  · rw [decide_eq_false hi, Bool.false_and, h.tail index (Nat.le_of_not_lt hi)]

theorem last_and_tailMask (h : bits.WellFormed) {last : UInt64}
    (hl : bits.words[bits.words.size - 1]? = some last) :
    last &&& Bits.tailMask bits.length = last := by
  have hget : (Bits.trim bits.length bits.words)[bits.words.size - 1]? = some last := by
    rw [trim_eq h, hl]
  rw [Bits.trim, Array.getElem?_modify, if_pos rfl, hl] at hget
  exact Option.some.inj hget

theorem modify_self {words : Array UInt64} {position : Nat} {word : UInt64}
    (h : words[position]? = some word) : words.modify position (fun _ => word) = words := by
  refine Array.ext_getElem? fun other => ?_
  rw [Array.getElem?_modify]
  split
  next he => rw [← he, h]; rfl
  · rfl

/-- A sweep over all words of a string makes those of the combined one and counts their ones. -/
theorem sweep_eq (op : UInt64 → UInt64 → UInt64) {left right : Bits}
    (hs : left.words.size = right.words.size)
    (hc : ((Array.zipWith op left.words right.words).toList.flatMap Word.ones).length <
      UInt64.size) :
    sweep op right (List.range left.words.size) 0 left =
      .ok ((Array.zipWith op left.words right.words).toList.flatMap Word.ones).length
        { left with words := Array.zipWith op left.words right.words } := by
  rw [← combined_eq op hs] at hc ⊢
  have hrun := @run_sweep left op right [] left.words.toList 0 rfl (by simpa using hc)
  rw [List.length_nil, Array.length_toList, ← List.range_eq_range', Nat.zero_add] at hrun
  exact hrun

/-- **Nothing is trimmed** of a well-formed string, and nothing is taken off. -/
theorem trimLast_run {words : Array UInt64} {length ones : Nat}
    (h : Bits.WellFormed ⟨words, length, ones⟩) (count seen : Nat) :
    trimLast seen ⟨words, length, count⟩ = .ok seen ⟨words, length, count⟩ := by
  rw [trimLast, bind_run get_run]
  dsimp only
  by_cases hz : words.size = 0
  · rw [if_pos hz]
    rfl
  · have hlast := Array.getElem?_eq_getElem (show words.size - 1 < words.size by omega)
    generalize words[words.size - 1] = last at hlast
    have htrimmed := last_and_tailMask h hlast
    dsimp only at htrimmed
    rw [if_neg hz, bind_run (wordAt_run hlast), htrimmed, UInt64.xor_self]
    refine (bind_run (subtract_run (Nat.zero_le _))).trans ?_
    refine (bind_run (change_run hlast _)).trans ?_
    rw [modify_self hlast]
    rfl

theorem combine_eq {op : UInt64 → UInt64 → UInt64} {f : Bool → Bool → Bool}
    (hop : ∀ left right place, Word.test (op left right) place =
      f (Word.test left place) (Word.test right place)) (hf : f false false = false)
    {left right : Bits} (hl : left.WellFormed) (hr : right.WellFormed)
    (hsize : left.length + 63 < UInt64.size) :
    combine op right left = ended left (Bits.zipWords op left right) := by
  rw [combine, bind_run get_run]
  dsimp only
  by_cases hlen : left.length = right.length
  · obtain ⟨next, hzip, hwf, hnl, -, -⟩ := Bits.zipWords_eq_ok hop hf hl hr hlen
    have hcount := count_le_length hwf
    have hs : left.words.size = right.words.size := by rw [hl.size, hr.size, hlen]
    rw [Bits.zipWords, if_pos hlen] at hzip ⊢
    obtain rfl := Except.ok.inj hzip
    dsimp only at hcount
    rw [if_neg (Decidable.not_not.mpr hlen), bind_run (sweep_eq op hs (by omega))]
    exact bind_run (trimLast_run hwf left.count _)
  · rw [Bits.zipWords, if_neg hlen, if_pos hlen]
    rfl

end Agreement

/-- **Every operation in place ends as the operation on the whole string says**: with the string
that the latter gives, or at its fault, and then the string is as it was. -/
structure Agrees (bits : Bits) : Prop where
  push : ∀ value, InPlace.push value bits = .ok () (bits.push value)
  lookup : ∀ index, InPlace.lookup index bits = match bits.get index with
    | .ok value => .ok value bits
    | .error broken => .error broken bits
  write : ∀ index value, InPlace.write index value bits = ended bits (bits.set index value)
  and : ∀ other : Bits, other.WellFormed →
    combine (· &&& ·) other bits = ended bits (bits.and other)
  or : ∀ other : Bits, other.WellFormed →
    combine (· ||| ·) other bits = ended bits (bits.or other)
  complement : InPlace.complement bits = .ok () bits.not

end InPlace

/-- **The operations in place** agree on every well-formed string whose length a machine word holds
after rounding. -/
theorem Bits.WellFormed.agrees {bits : Bits} (h : bits.WellFormed)
    (hl : bits.length + 63 < UInt64.size) : InPlace.Agrees bits where
  push := InPlace.push_eq h hl
  lookup := InPlace.lookup_eq h
  write := InPlace.write_eq h hl
  and := fun _ ho => InPlace.combine_eq Word.test_and rfl h ho hl
  or := fun _ ho => InPlace.combine_eq Word.test_or rfl h ho hl
  complement := InPlace.complement_eq h

end RowSieve

import RowSieve.Outcome

/-!
# Bit strings

A bit string of any length, packed into 64-bit words with the first bit lowest, beside its length
and the number of its ones.  The words hold `⌈length / 64⌉ · 64` bits; those past the length stay
zero, so that words can be combined and counted whole.

`Bits.toList` is what a bit string stands for.
-/

namespace RowSieve

/-! ### Words -/

namespace Word

/-- The bit at a place. -/
def test (word : UInt64) (place : Nat) : Bool :=
  word.toBitVec.getLsbD place

/-- The word whose only one is at a place below 64. -/
def single (place : Nat) : UInt64 :=
  ⟨.twoPow 64 place⟩

/-- The places of the ones, lowest first. -/
def ones (word : UInt64) : List Nat :=
  if word = 0 then [] else (List.range 64).filter (test word)

/-- The place of the lowest one; 64 if there is none. -/
def lowest (word : UInt64) : Nat :=
  word.toBitVec.ctz.toNat

/-- The word without its lowest one. -/
def dropLowest (word : UInt64) : UInt64 :=
  word &&& (word - 1)

theorem toNat_dropLowest_lt {word : UInt64} (h : word ≠ 0) :
    (dropLowest word).toNat < word.toNat := by
  have hpos : 0 < word.toNat := Nat.pos_of_ne_zero fun hz => h (UInt64.toNat_inj.mp hz)
  have hone : (1 : UInt64).toNat ≤ word.toNat := hpos
  rw [dropLowest, UInt64.toNat_and]
  refine Nat.lt_of_le_of_lt Nat.and_le_right ?_
  rw [UInt64.toNat_sub_of_le _ _ (UInt64.le_iff_toNat_le.mpr hone)]
  exact Nat.sub_lt hpos Nat.one_pos

end Word

/-! ### Bit strings -/

/-- A packed bit string. -/
structure Bits where
  /-- The bits, 64 to a word, the first one lowest. -/
  words : Array UInt64
  /-- The number of bits. -/
  length : Nat
  /-- The number of ones among them. -/
  count : Nat
  deriving DecidableEq

namespace Bits

/-- The number of words that hold this many bits. -/
def wordCount (length : Nat) : Nat :=
  (length + 63) / 64

/-- The places of the last word that are in use: all of them when it is full. -/
def tailMask (length : Nat) : UInt64 :=
  ⟨BitVec.allOnes 64 >>> ((64 - length % 64) % 64)⟩

/-- Zero what lies past the length in the last word. -/
def trim (length : Nat) (words : Array UInt64) : Array UInt64 :=
  words.modify (words.size - 1) (· &&& tailMask length)

/-- The bit string without bits. -/
def empty : Bits :=
  ⟨#[], 0, 0⟩

/-- So many ones. -/
def allSet (length : Nat) : Bits :=
  ⟨trim length (Array.replicate (wordCount length) (~~~0)), length, length⟩

/-- So many zeros. -/
def allClear (length : Nat) : Bits :=
  ⟨Array.replicate (wordCount length) 0, length, 0⟩

/-- Add a bit at the end. -/
def push (bits : Bits) (value : Bool) : Bits :=
  let words := if bits.length % 64 = 0 then bits.words.push 0 else bits.words
  if value then
    ⟨words.modify (bits.length / 64) (· ||| Word.single (bits.length % 64)),
      bits.length + 1, bits.count + 1⟩
  else
    ⟨words, bits.length + 1, bits.count⟩

/-- The bit string of these bits. -/
def ofList (values : List Bool) : Bits :=
  values.foldl push empty

/-- The bit at an index; past the end there are no ones. -/
def test (bits : Bits) (index : Nat) : Bool :=
  match bits.words[index / 64]? with
  | some word => Word.test word (index % 64)
  | none => false

/-- The bits, first one first. -/
def toList (bits : Bits) : List Bool :=
  (List.range bits.length).map bits.test

/-- The bit at an index inside the string. -/
def get (bits : Bits) (index : Nat) : Except Fault Bool :=
  if index < bits.length then .ok (bits.test index)
  else .error (.bitOutOfRange index bits.length)

/-- Change the bit at an index inside the string. -/
def set (bits : Bits) (index : Nat) (value : Bool) : Except Fault Bits :=
  if index < bits.length then
    let position := index / 64
    let place := Word.single (index % 64)
    match bits.test index, value with
    | true, false =>
      .ok ⟨bits.words.modify position (· &&& ~~~place), bits.length, bits.count - 1⟩
    | false, true =>
      .ok ⟨bits.words.modify position (· ||| place), bits.length, bits.count + 1⟩
    | _, _ => .ok bits
  else .error (.bitOutOfRange index bits.length)

/-- There are no bits. -/
def isEmpty (bits : Bits) : Bool :=
  bits.length = 0

/-- Every bit is a one. -/
def isAllSet (bits : Bits) : Bool :=
  bits.count = bits.length

/-- Where the enumeration of the ones of a row of words stands. -/
structure Cursor where
  words : Array UInt64
  /-- The word reached. -/
  position : Nat
  /-- What is left of it. -/
  current : UInt64
  deriving DecidableEq

namespace Cursor

/-- The cursor at the first word; no words are as good as one without ones. -/
def start (words : Array UInt64) : Cursor :=
  ⟨words, 0, words[0]?.getD 0⟩

/-- The index of the next one, and the cursor behind it.  Words without ones are passed over. -/
def next? (cursor : Cursor) : Option (Nat × Cursor) :=
  if cursor.current ≠ 0 then
    some (cursor.position * 64 + Word.lowest cursor.current,
      { cursor with current := Word.dropLowest cursor.current })
  else if h : cursor.position + 1 < cursor.words.size then
    next? ⟨cursor.words, cursor.position + 1, cursor.words[cursor.position + 1]⟩
  else none
termination_by cursor.words.size - cursor.position

/-- A bound on the ones to come: each of them takes something off the current word, or the word. -/
def ahead (cursor : Cursor) : Nat :=
  (cursor.words.size - cursor.position) * UInt64.size + cursor.current.toNat

theorem ahead_of_next? {cursor later : Cursor} {index : Nat}
    (h : cursor.next? = some (index, later)) : later.ahead < cursor.ahead := by
  induction cursor using next?.induct with
  | case1 cursor hc =>
      rw [next?, if_pos hc] at h
      obtain ⟨-, rfl⟩ := Prod.mk.inj (Option.some.inj h)
      exact Nat.add_lt_add_left (Word.toNat_dropLowest_lt hc) _
  | case2 cursor hc hlt ih =>
      rw [next?, if_neg hc, dif_pos hlt] at h
      have hword := cursor.words[cursor.position + 1].toNat_lt
      refine Nat.lt_of_lt_of_le (ih h) ?_
      obtain ⟨rest, hrest⟩ : ∃ rest, cursor.words.size - cursor.position = rest + 1 :=
        ⟨cursor.words.size - cursor.position - 1, by omega⟩
      have hrest' : cursor.words.size - (cursor.position + 1) = rest := by omega
      rw [ahead, ahead, hrest', hrest, Nat.succ_mul]
      simp only [UInt64.size]
      omega
  | case3 cursor hc hlt =>
      rw [next?, if_neg hc, dif_neg hlt] at h
      cases h

/-- The indices of the ones to come, ascending. -/
def toList (cursor : Cursor) : List Nat :=
  match _ : cursor.next? with
  | some (index, later) => index :: later.toList
  | none => []
termination_by cursor.ahead
decreasing_by exact ahead_of_next? ‹_›

end Cursor

/-- The indices of the ones, ascending. -/
def indices (bits : Bits) : List Nat :=
  (Cursor.start bits.words).toList

/-- Combine two equally long strings word by word and count afresh. -/
def zipWords (op : UInt64 → UInt64 → UInt64) (left right : Bits) : Except Fault Bits :=
  if left.length = right.length then
    let words := Array.zipWith op left.words right.words
    .ok ⟨words, left.length, (words.toList.flatMap Word.ones).length⟩
  else .error (.unequalLengths left.length right.length)

/-- The ones of both. -/
def and : Bits → Bits → Except Fault Bits :=
  zipWords (· &&& ·)

/-- The ones of either. -/
def or : Bits → Bits → Except Fault Bits :=
  zipWords (· ||| ·)

/-- Zeros for ones and ones for zeros. -/
def not (bits : Bits) : Bits :=
  ⟨trim bits.length (bits.words.map (~~~ ·)), bits.length, bits.length - bits.count⟩

end Bits

end RowSieve

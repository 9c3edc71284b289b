import Mathlib.Algebra.Group.Nat.Defs
import RowSieve.Proofs.Text.Search
import RowSieve.TextFunction

/-!
# Functions on texts, character by character

Lengths, parts and positions are told of one list of characters, by functions of which some look at
the encoding.

* `Text.slice_eq`: the part of a text is its characters at the positions from one up to another.
* `Text.slice_eq_iff_isPrefix`, `Text.slice_eq_iff_isSuffix`: a part that is the pattern.
* `TextFunction.tells`: the functions agree with each other and with the characters.
-/

namespace RowSieve

namespace Text

/-! ### Parts -/

/-- The characters at the positions that pass. -/
def charactersAt (passes : Nat → Bool) (text : List Char) : List Char :=
  (text.zipIdx.filter fun entry => passes entry.2).map (·.1)

/-- A position from one on and before another, or up to the end. -/
def within (start : Nat) (stop : Option Nat) (position : Nat) : Bool :=
  start ≤ position && stop.all (position < ·)

theorem charactersAt_congr {passes others : Nat → Bool} {text : List Char}
    (h : ∀ position < text.length, passes position = others position) :
    charactersAt passes text = charactersAt others text := by
  have hfilter : text.zipIdx.filter (fun entry => passes entry.2) =
      text.zipIdx.filter fun entry => others entry.2 := by
    refine List.filter_congr fun entry he => h entry.2 ?_
    simpa using List.snd_lt_of_mem_zipIdx he
  rw [charactersAt, charactersAt, hfilter]

/-- Positions may be counted from any number. -/
theorem filter_zipIdx (start stop offset : Nat) (text : List Char) :
    ((text.zipIdx offset).filter fun entry => within start (some stop) entry.2).map (·.1) =
      (text.drop (start - offset)).take (stop - max start offset) := by
  induction text generalizing offset with
  | nil => simp
  | cons c rest ih =>
      rw [List.zipIdx_cons, List.filter_cons]
      by_cases hstart : start ≤ offset
      · have hmax : max start offset = offset := max_eq_right hstart
        have hlate : start ≤ offset + 1 := Nat.le_add_right_of_le hstart
        have hnext : max start (offset + 1) = offset + 1 := max_eq_right hlate
        rw [Nat.sub_eq_zero_of_le hstart, List.drop_zero, hmax]
        by_cases hstop : offset < stop
        · rw [if_pos (by simp [within, hstart, hstop]), List.map_cons, ih, hnext,
            Nat.sub_eq_zero_of_le hlate, List.drop_zero,
            ← Nat.succ_pred_eq_of_pos (Nat.sub_pos_of_lt hstop), List.take_succ_cons]
          rfl
        · have hpast : stop - offset = 0 := Nat.sub_eq_zero_of_le (Nat.le_of_not_lt hstop)
          have hpastNext : stop - (offset + 1) = 0 := by omega
          rw [if_neg (by simp [within, hstop]), ih, hnext, hpast, hpastNext, List.take_zero,
            List.take_zero]
      · have hlater : start - offset = start - (offset + 1) + 1 := by omega
        rw [if_neg (by simp [within, hstart]), ih, hlater, List.drop_succ_cons,
          max_eq_left (Nat.le_of_not_le hstart), max_eq_left (Nat.lt_of_not_le hstart)]

/-- Up to the end is up to a position that lies past it. -/
theorem within_none {start position length : Nat} (h : position < length) :
    within start none position = within start (some (start + length)) position := by
  have hlt : position < start + length := Nat.lt_add_left start h
  simp [within, hlt]

/-- **The part of a text** is its characters at the positions within the bounds. -/
theorem slice_eq {text : List Char} (h : text.length < UInt64.size) (start : Nat)
    (stop : Option Nat) : slice start stop text = charactersAt (within start stop) text := by
  have hsome : ∀ stop,
      slice start (some stop) text = charactersAt (within start (some stop)) text := by
    intro stop
    rw [charactersAt, filter_zipIdx, max_eq_left (Nat.zero_le start)]
    rfl
  cases stop with
  | some stop => exact hsome stop
  | none =>
      have hnone : slice start none text = slice start (some (start + (UInt64.size - 1))) text := by
        rw [slice, slice, Nat.add_sub_cancel_left]
      rw [hnone, hsome]
      exact (charactersAt_congr fun position hp =>
        within_none (Nat.lt_of_lt_of_le hp (Nat.le_pred_of_lt h))).symm

theorem slice_none {text : List Char} (h : text.length < UInt64.size) (start : Nat) :
    slice start none text = text.drop start := by
  refine List.take_of_length_le ?_
  rw [List.length_drop]
  exact Nat.le_trans (Nat.sub_le _ _) (Nat.le_pred_of_lt h)

/-- **A part that is the pattern** begins where the pattern occurs. -/
theorem slice_eq_iff_isPrefix {pattern text : List Char} {position : Nat} :
    slice position (some (position + pattern.length)) text = pattern ↔
      pattern <+: text.drop position := by
  rw [slice, Nat.add_sub_cancel_left, List.prefix_iff_eq_take, eq_comm]

theorem slice_eq_iff_isSuffix {pattern text : List Char} (h : text.length < UInt64.size) :
    (pattern.length ≤ text.length ∧ slice (text.length - pattern.length) none text = pattern) ↔
      pattern <:+ text := by
  rw [slice_none h]
  constructor
  · rintro ⟨-, hpattern⟩
    exact hpattern ▸ List.drop_suffix _ text
  · intro hsuffix
    exact ⟨hsuffix.length_le, (List.suffix_iff_eq_drop.mp hsuffix).symm⟩

theorem length_slice (start stop : Nat) (text : List Char) :
    ((slice start (some stop) text).length : Int) =
      max 0 (min (stop : Int) text.length - min (start : Int) text.length) := by
  have hlength : (slice start (some stop) text).length =
      min (stop - start) (text.length - start) := by
    rw [slice, List.length_take, List.length_drop]
  omega

/-- Bounds without a position between them leave nothing. -/
theorem slice_eq_nil {start : Nat} {stop : Option Nat} {text : List Char}
    (h : (∃ bound ≤ start, stop = some bound) ∨ text.length ≤ start) :
    slice start stop text = [] := by
  rcases h with ⟨bound, hb, rfl⟩ | hlength
  · rw [slice, Nat.sub_eq_zero_of_le hb, List.take_zero]
  · simp [slice, List.drop_eq_nil_of_le hlength]

/-! ### Characters and bytes -/

/-- **A text in memory**: its bytes can be counted by an integer of 64 bits, with a sign. -/
def InMemory (text : String) : Prop :=
  (bytes text).length < 2 ^ 63

instance (text : String) : Decidable (InMemory text) :=
  inferInstanceAs (Decidable ((bytes text).length < 2 ^ 63))

/-- No character takes less than a byte. -/
theorem length_le_length_encoded (chars : List Char) : chars.length ≤ (encoded chars).length := by
  induction chars with
  | nil => exact Nat.le_refl 0
  | cons c rest ih =>
      rw [encoded_cons, List.length_append, List.length_cons, String.length_utf8EncodeChar,
        Nat.add_comm]
      exact Nat.add_le_add c.utf8Size_pos ih

theorem InMemory.length_lt {text : String} (h : InMemory text) : text.toList.length < 2 ^ 63 := by
  rw [InMemory, bytes_eq] at h
  exact Nat.lt_of_le_of_lt (length_le_length_encoded text.toList) h

theorem InMemory.length_lt_size {text : String} (h : InMemory text) :
    text.toList.length < UInt64.size :=
  Nat.lt_trans h.length_lt (by decide)

end Text

namespace TextFunction

/-! ### Results for one text -/

/-- The number of characters, as told by `length`. -/
def count (text : String) : Int64 :=
  length.apply text

/-- The part of a text, as told by `slice`. -/
def part (start : Nat) (stop : Option Nat) (text : String) : String :=
  (slice start stop).apply text

/-- The position of a pattern, or −1, as told by `find`. -/
def found (pattern text : String) : Int64 :=
  (find pattern).apply text

/-- The text contains the pattern, as told by `contains`. -/
def isInside (pattern text : String) : Bool :=
  (contains pattern).apply text

/-- The text begins with the pattern, as told by `startsWith`. -/
def isFront (pattern text : String) : Bool :=
  (startsWith pattern).apply text

/-- The text ends with the pattern, as told by `endsWith`. -/
def isBack (pattern text : String) : Bool :=
  (endsWith pattern).apply text

/-- **The pattern occurs at a position**: the part of the text from there on is the pattern. -/
def OccursAt (pattern text : String) (start : Nat) : Prop :=
  part start (some (start + pattern.toList.length)) text = pattern

instance (pattern text : String) (start : Nat) : Decidable (OccursAt pattern text start) :=
  inferInstanceAs (Decidable (part start (some (start + pattern.toList.length)) text = pattern))

/-- **What the functions tell of one text**, in terms of its characters. -/
structure Tells (text : String) : Prop where
  /-- The length counts the characters. -/
  count_eq : (count text).toInt = text.toList.length
  /-- A part is the characters at the positions within its bounds. -/
  part_eq : ∀ start stop,
    (part start stop text).toList = Text.charactersAt (Text.within start stop) text.toList
  /-- There are none without a position between the bounds. -/
  part_empty : ∀ start stop, ((∃ bound ≤ start, stop = some bound) ∨ text.toList.length ≤ start) →
    part start stop text = ""
  /-- A part is as long as its bounds are apart within the text. -/
  count_part : ∀ start stop : Nat, (count (part start (some stop) text)).toInt =
    max 0 (min (stop : Int) text.toList.length - min (start : Int) text.toList.length)
  /-- The position found is the least at which the pattern occurs. -/
  found_eq_iff : ∀ (pattern : String) (start : Nat), (found pattern text).toInt = start ↔
    IsLeast {start | OccursAt pattern text start} start
  /-- It is −1 if the pattern occurs nowhere. -/
  found_eq_neg_one_iff : ∀ pattern, (found pattern text).toInt = -1 ↔
    ∀ start, ¬ OccursAt pattern text start
  /-- The empty pattern is found at the start. -/
  found_empty : (found "" text).toInt = 0
  /-- What the text contains is found. -/
  isInside_iff : ∀ pattern, isInside pattern text = true ↔ 0 ≤ (found pattern text).toInt
  /-- What the text begins with is found at the start. -/
  isFront_iff : ∀ pattern, isFront pattern text = true ↔ (found pattern text).toInt = 0
  /-- What the text ends with is its last part of that length. -/
  isBack_iff : ∀ pattern, isBack pattern text = true ↔
    pattern.toList.length ≤ text.toList.length ∧
      part (text.toList.length - pattern.toList.length) none text = pattern
  /-- What the search finds among the bytes begins between two characters. -/
  between : ∀ pattern place, Text.find? (Text.bytes pattern) (Text.bytes text) = some place →
    ∃ start, place = (Text.bytes (String.ofList (text.toList.take start))).length

section Tells

variable {pattern text : String}

@[simp] theorem toList_part (start : Nat) (stop : Option Nat) (text : String) :
    (part start stop text).toList = Text.slice start stop text.toList :=
  String.toList_ofList

theorem occursAt_iff {start : Nat} :
    OccursAt pattern text start ↔ pattern.toList <+: text.toList.drop start := by
  rw [← Text.slice_eq_iff_isPrefix, OccursAt, ← String.toList_inj, toList_part]

theorem toInt_count (h : text.toList.length < 2 ^ 63) : (count text).toInt = text.toList.length :=
  Int64.toInt_ofNat_of_lt h

/-- **How a search ends**: with the least position at which the pattern occurs, or with −1. -/
theorem found_cases (h : Text.InMemory text) (pattern : String) :
    (∃ start, IsLeast {start | OccursAt pattern text start} start ∧
      (found pattern text).toInt = start ∧ isInside pattern text = true) ∨
    ((∀ start, ¬ OccursAt pattern text start) ∧
      (found pattern text).toInt = -1 ∧ isInside pattern text = false) := by
  have hfound : found pattern text =
      position ((Text.find? (Text.encoded pattern.toList) (Text.encoded text.toList)).map
        fun place => (Text.before place text.toList).length) := by
    rw [← Text.bytes_eq, ← Text.bytes_eq]
    rfl
  have hinside : isInside pattern text =
      (Text.find? (Text.encoded pattern.toList) (Text.encoded text.toList)).isSome := by
    rw [← Text.bytes_eq, ← Text.bytes_eq]
    rfl
  simp only [occursAt_iff]
  rw [hfound, hinside]
  cases hf : Text.find? (Text.encoded pattern.toList) (Text.encoded text.toList) with
  | none => exact .inr ⟨Text.find?_encoded_eq_none hf, rfl, rfl⟩
  | some place =>
      obtain ⟨start, hleast, -, hbefore, hlength⟩ := Text.find?_encoded_eq_some hf
      have hle : start ≤ text.toList.length := by
        rw [← hlength, hbefore]
        exact List.length_take_le' _ _
      refine .inl ⟨start, hleast, ?_, rfl⟩
      rw [Option.map_some, hlength]
      exact Int64.toInt_ofNat_of_lt (Nat.lt_of_le_of_lt hle h.length_lt)

theorem toInt_found_eq_iff (h : Text.InMemory text) {start : Nat} :
    (found pattern text).toInt = start ↔ IsLeast {start | OccursAt pattern text start} start := by
  rcases found_cases h pattern with ⟨least, hleast, hfound, -⟩ | ⟨hnone, hfound, -⟩
  · rw [hfound, Int.natCast_inj]
    exact ⟨fun he => he ▸ hleast, fun hs => hleast.unique hs⟩
  · rw [hfound]
    exact ⟨fun he => by omega, fun hs => absurd hs.1 (hnone start)⟩

/-- What occurs at the first position is found there. -/
theorem toInt_found_eq_zero_iff (h : Text.InMemory text) :
    (found pattern text).toInt = 0 ↔ OccursAt pattern text 0 := by
  rw [← Int.natCast_zero, toInt_found_eq_iff h]
  exact ⟨fun hleast => hleast.1, fun hoccurs => ⟨hoccurs, fun start _ => Nat.zero_le start⟩⟩

theorem isFront_iff_occursAt : isFront pattern text = true ↔ OccursAt pattern text 0 := by
  rw [occursAt_iff, List.drop_zero, ← Text.encoded_isPrefix_iff, ← Text.bytes_eq, ← Text.bytes_eq]
  exact List.isPrefixOf_iff_prefix

theorem isBack_iff_isSuffix : isBack pattern text = true ↔ pattern.toList <:+ text.toList := by
  rw [← Text.encoded_isSuffix_iff, ← Text.bytes_eq, ← Text.bytes_eq]
  exact List.isSuffixOf_iff_suffix

/-- **The functions agree** with each other and with the characters of the text. -/
theorem tells (h : Text.InMemory text) : Tells text where
  count_eq := toInt_count h.length_lt
  part_eq := fun start stop => by rw [toList_part, Text.slice_eq h.length_lt_size]
  part_empty := fun start stop hempty => by
    rw [← String.toList_inj, toList_part, Text.slice_eq_nil hempty]
    rfl
  count_part := fun start stop => by
    have hlength := Text.length_slice start stop text.toList
    have hlt : (part start (some stop) text).toList.length < 2 ^ 63 := by
      rw [toList_part, Text.slice]
      refine Nat.lt_of_le_of_lt ?_ h.length_lt
      exact ((List.take_sublist _ _).trans (List.drop_sublist _ _)).length_le
    rw [toInt_count hlt, toList_part, hlength]
  found_eq_iff := fun _ _ => toInt_found_eq_iff h
  found_eq_neg_one_iff := fun pattern => by
    rcases found_cases h pattern with ⟨least, hleast, hfound, -⟩ | ⟨hnone, hfound, -⟩
    · rw [hfound]
      exact ⟨fun he => by omega, fun hn => absurd hleast.1 (hn least)⟩
    · exact ⟨fun _ => hnone, fun _ => hfound⟩
  found_empty := (toInt_found_eq_zero_iff h).mpr (occursAt_iff.mpr List.nil_prefix)
  isInside_iff := fun pattern => by
    rcases found_cases h pattern with ⟨least, -, hfound, hinside⟩ | ⟨-, hfound, hinside⟩
    · simp [hfound, hinside]
    · simp [hfound, hinside]
  isFront_iff := fun _ => isFront_iff_occursAt.trans (toInt_found_eq_zero_iff h).symm
  isBack_iff := fun pattern => by
    rw [isBack_iff_isSuffix, ← Text.slice_eq_iff_isSuffix h.length_lt_size, ← String.toList_inj,
      toList_part]
  between := fun pattern place hp => by
    rw [Text.bytes_eq, Text.bytes_eq] at hp
    obtain ⟨start, -, hplace, -⟩ := Text.find?_encoded_eq_some hp
    refine ⟨start, ?_⟩
    rw [hplace, Text.bytes_eq, String.toList_ofList]

end Tells

end TextFunction

end RowSieve

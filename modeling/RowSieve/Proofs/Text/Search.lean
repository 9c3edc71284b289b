import Mathlib.Data.List.Infix
import Mathlib.Order.Bounds.Basic
import RowSieve.Text.Search

/-!
# What a search of the encoding finds

A pattern is searched for in the bytes of a text, and positions count characters.  The first byte of
a character is no byte inside another one, so what is found among the bytes begins between two
characters of the text.

* `Text.find?_eq_some_iff`: the search finds the least place at which the pattern occurs.
* `Text.exists_position`: an occurrence among the bytes is one among the characters.
* `Text.find?_encoded_eq_some`: the text is cut between two characters, and in front of the place
  lie as many characters as the least position says.
-/

namespace RowSieve.Text

/-! ### Searching bytes -/

theorem find?_eq_none_iff {pattern text : List UInt8} :
    find? pattern text = none ↔ ∀ place, ¬ pattern <+: text.drop place := by
  induction text with
  | nil => simp [find?]
  | cons byte rest ih =>
      rw [find?, ← Nat.and_forall_add_one, List.drop_zero]
      simp only [List.drop_succ_cons, ← ih]
      by_cases h : pattern <+: byte :: rest
      · simp [h]
      · simp [h]

/-- What occurs at the first place occurs nowhere earlier. -/
theorem some_zero_eq_iff {occurs : Nat → Prop} (h : occurs 0) {place : Nat} :
    some 0 = some place ↔ IsLeast {place | occurs place} place := by
  have hleast : IsLeast {place | occurs place} 0 := ⟨h, fun other _ => Nat.zero_le other⟩
  constructor
  · intro hplace
    exact Option.some.inj hplace ▸ hleast
  · intro hplace
    rw [hleast.unique hplace]

/-- Where nothing occurs at the first place, the least place is one behind the least in the rest. -/
theorem isLeast_add_one_iff {occurs : Nat → Prop} (h : ¬ occurs 0) {place : Nat} :
    IsLeast {place | occurs place} (place + 1) ↔ IsLeast {place | occurs (place + 1)} place := by
  constructor
  · rintro ⟨hoccurs, hleast⟩
    exact ⟨hoccurs, fun other ho => Nat.le_of_succ_le_succ (hleast ho)⟩
  · rintro ⟨hoccurs, hleast⟩
    refine ⟨hoccurs, fun other ho => ?_⟩
    cases other with
    | zero => exact absurd ho h
    | succ other => exact Nat.succ_le_succ (hleast ho)

/-- **The search** finds the least place at which the pattern occurs. -/
theorem find?_eq_some_iff {pattern text : List UInt8} {place : Nat} :
    find? pattern text = some place ↔ IsLeast {place | pattern <+: text.drop place} place := by
  induction text generalizing place with
  | nil =>
      by_cases h : pattern = []
      · subst h
        exact some_zero_eq_iff (List.nil_prefix)
      · simp [find?, IsLeast, h]
  | cons byte rest ih =>
      rw [find?]
      by_cases h : pattern <+: byte :: rest
      · rw [if_pos (List.isPrefixOf_iff_prefix.mpr h)]
        exact some_zero_eq_iff h
      · rw [if_neg fun hp => h (List.isPrefixOf_iff_prefix.mp hp)]
        cases place with
        | zero => simp [IsLeast, h]
        | succ place =>
            rw [isLeast_add_one_iff (by simpa using h)]
            simp [ih]

/-! ### The encoding -/

/-- The encoding of characters, byte by byte. -/
def encoded (chars : List Char) : List UInt8 :=
  chars.flatMap String.utf8EncodeChar

theorem bytes_eq (text : String) : bytes text = encoded text.toList := by
  have h : text.toByteArray = text.toList.utf8Encode := String.utf8Encode_toList.symm
  show text.toByteArray.data.toList = _
  rw [h]
  simp [List.utf8Encode, encoded]

@[simp] theorem encoded_nil : encoded [] = [] := rfl

theorem encoded_cons (c : Char) (chars : List Char) :
    encoded (c :: chars) = String.utf8EncodeChar c ++ encoded chars :=
  List.flatMap_cons

theorem encoded_append (left right : List Char) :
    encoded (left ++ right) = encoded left ++ encoded right :=
  List.flatMap_append

theorem encoded_isPrefix_iff {pattern text : List Char} :
    encoded pattern <+: encoded text ↔ pattern <+: text := by
  constructor
  · rintro ⟨rest, hrest⟩
    refine List.isPrefix_of_utf8Encode_append_eq_utf8Encode rest.toByteArray ?_
    rw [List.utf8Encode, List.utf8Encode, ← List.toByteArray_append]
    exact congrArg List.toByteArray hrest
  · rintro ⟨rest, rfl⟩
    exact ⟨encoded rest, (encoded_append pattern rest).symm⟩

/-- The first byte of a character is no byte inside another one. -/
theorem encoded_not_isPrefix_inside {pattern : List Char} (hp : pattern ≠ []) {c : Char}
    {rest : List UInt8} {place : Nat} (hpos : 0 < place) (hlt : place < c.utf8Size) :
    ¬ encoded pattern <+: (String.utf8EncodeChar c ++ rest).drop place := by
  rintro ⟨after, hafter⟩
  obtain ⟨d, others, rfl⟩ := List.exists_cons_of_ne_nil hp
  have hinside : place < (String.utf8EncodeChar c).length := by simpa using hlt
  have hd : 0 < (String.utf8EncodeChar d).length := by simpa using d.utf8Size_pos
  have hfirst : (String.utf8EncodeChar d)[0] = (String.utf8EncodeChar c)[place] := by
    have hzero := congrArg (fun found => found[0]?) hafter
    rw [encoded_cons, List.append_assoc, List.getElem?_drop, List.getElem?_append_left hd,
      Nat.add_zero, List.getElem?_append_left hinside, List.getElem?_eq_getElem hd,
      List.getElem?_eq_getElem hinside] at hzero
    exact Option.some.inj hzero
  have hbyte := UInt8.isUTF8FirstByte_getElem_zero_utf8EncodeChar (c := d)
  rw [hfirst, UInt8.isUTF8FirstByte_getElem_utf8EncodeChar] at hbyte
  exact absurd hbyte (Nat.ne_of_gt hpos)

/-- **An occurrence among the bytes** is one among the characters. -/
theorem exists_position {pattern text : List Char} (hp : pattern ≠ []) {place : Nat}
    (h : encoded pattern <+: (encoded text).drop place) :
    ∃ position ≤ text.length, (encoded (text.take position)).length = place ∧
      pattern <+: text.drop position := by
  induction text generalizing place with
  | nil =>
      rw [encoded_nil, List.drop_nil, ← encoded_nil, encoded_isPrefix_iff, List.prefix_nil] at h
      exact absurd h hp
  | cons c rest ih =>
      rcases Nat.eq_zero_or_pos place with rfl | hpos
      · exact ⟨0, Nat.zero_le _, rfl, encoded_isPrefix_iff.mp h⟩
      · rw [encoded_cons] at h
        have hsize : c.utf8Size ≤ place := Nat.le_of_not_lt fun hlt =>
          encoded_not_isPrefix_inside hp hpos hlt h
        rw [List.drop_append, List.drop_eq_nil_of_le (by simpa using hsize), List.nil_append,
          String.length_utf8EncodeChar] at h
        obtain ⟨position, hle, hlength, hposition⟩ := ih h
        refine ⟨position + 1, Nat.succ_le_succ hle, ?_, hposition⟩
        rw [List.take_succ_cons, encoded_cons, List.length_append, hlength,
          String.length_utf8EncodeChar, Nat.add_sub_cancel' hsize]

/-- An occurrence among the characters is one among the bytes. -/
theorem encoded_isPrefix_drop {pattern text : List Char} {position : Nat}
    (h : pattern <+: text.drop position) :
    encoded pattern <+: (encoded text).drop (encoded (text.take position)).length := by
  have hsplit : encoded text = encoded (text.take position) ++ encoded (text.drop position) := by
    rw [← encoded_append, List.take_append_drop]
  rw [hsplit, List.drop_left]
  exact encoded_isPrefix_iff.mpr h

theorem length_encoded_take_lt {text : List Char} {position later : Nat} (h : position < later)
    (hl : later ≤ text.length) :
    (encoded (text.take position)).length < (encoded (text.take later)).length := by
  induction text generalizing position later with
  | nil => exact absurd (Nat.lt_of_lt_of_le h hl) (Nat.not_lt_zero position)
  | cons c rest ih =>
      obtain ⟨later, rfl⟩ := Nat.exists_eq_add_one_of_ne_zero (Nat.ne_of_gt (Nat.zero_lt_of_lt h))
      rw [List.take_succ_cons, encoded_cons, List.length_append, String.length_utf8EncodeChar]
      cases position with
      | zero => exact Nat.add_pos_left c.utf8Size_pos _
      | succ position =>
          rw [List.take_succ_cons, encoded_cons, List.length_append, String.length_utf8EncodeChar]
          exact Nat.add_lt_add_left
            (ih (Nat.lt_of_succ_lt_succ h) (Nat.le_of_succ_le_succ hl)) _

/-- **The characters before a place** between two characters. -/
theorem before_length_encoded (text : List Char) (position : Nat) :
    before (encoded (text.take position)).length text = text.take position := by
  induction text generalizing position with
  | nil => simp [before]
  | cons c rest ih =>
      cases position with
      | zero => simp [before, Nat.not_le.mpr c.utf8Size_pos]
      | succ position =>
          rw [List.take_succ_cons, encoded_cons, List.length_append, String.length_utf8EncodeChar,
            before, if_pos (Nat.le_add_right _ _), Nat.add_sub_cancel_left, ih]

/-! ### Searching for characters -/

/-- **The text is cut between two characters**, in front of the least position at which the pattern
occurs. -/
theorem find?_encoded_eq_some {pattern text : List Char} {place : Nat}
    (h : find? (encoded pattern) (encoded text) = some place) :
    ∃ position, IsLeast {position | pattern <+: text.drop position} position ∧
      place = (encoded (text.take position)).length ∧ before place text = text.take position ∧
        (before place text).length = position := by
  obtain ⟨hoccurs, hleast⟩ := find?_eq_some_iff.mp h
  obtain ⟨position, hle, rfl, hposition⟩ : ∃ position ≤ text.length,
      (encoded (text.take position)).length = place ∧ pattern <+: text.drop position := by
    by_cases hp : pattern = []
    · subst hp
      have hzero : place = 0 := Nat.le_zero.mp (hleast List.nil_prefix)
      exact ⟨0, Nat.zero_le _, hzero.symm, List.nil_prefix⟩
    · exact exists_position hp hoccurs
  have hbefore := before_length_encoded text position
  refine ⟨position, ⟨hposition, fun other ho => ?_⟩, rfl, hbefore, ?_⟩
  · by_contra hlt
    have hless := length_encoded_take_lt (Nat.lt_of_not_le hlt) hle
    exact absurd (hleast (encoded_isPrefix_drop ho)) (Nat.not_le.mpr hless)
  · rw [hbefore, List.length_take, Nat.min_eq_left hle]

theorem find?_encoded_eq_none {pattern text : List Char}
    (h : find? (encoded pattern) (encoded text) = none) (position : Nat) :
    ¬ pattern <+: text.drop position :=
  fun hp => find?_eq_none_iff.mp h _ (encoded_isPrefix_drop hp)

/-- **The end of the encoding** is the encoding of the end. -/
theorem encoded_isSuffix_iff {pattern text : List Char} :
    encoded pattern <:+ encoded text ↔ pattern <:+ text := by
  constructor
  · rintro ⟨front, hfront⟩
    by_cases hp : pattern = []
    · exact hp ▸ List.nil_suffix
    · have hdrop : (encoded text).drop front.length = encoded pattern := by
        rw [← hfront, List.drop_left]
      have hoccurs : encoded pattern <+: (encoded text).drop front.length := by rw [hdrop]
      obtain ⟨position, -, hlength, hposition⟩ := exists_position hp hoccurs
      -- what lies behind the place is the encoding of the pattern and of nothing more
      have hsplit : encoded text =
          encoded (text.take position) ++ encoded (text.drop position) := by
        rw [← encoded_append, List.take_append_drop]
      have hrest : encoded (text.drop position) = encoded pattern := by
        rw [← hdrop, ← hlength, hsplit, List.drop_left]
      have hback : text.drop position <+: pattern := by rw [← encoded_isPrefix_iff, hrest]
      rw [hposition.eq_of_length_le hback.length_le]
      exact List.drop_suffix position text
  · rintro ⟨front, rfl⟩
    exact ⟨encoded front, (encoded_append front pattern).symm⟩

end RowSieve.Text

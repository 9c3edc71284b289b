import RowSieve.Proofs.Word

/-!
# Enumerating the ones

A cursor goes through a row of words and takes the lowest one off the word it has reached, again and
again.

* `Bits.Cursor.next?_spec`: one step takes the first of the ones that remain, and ends when none do.
* `Bits.Cursor.toList_eq`: the whole run yields the ones that remain.
* `Bits.Cursor.yields_toList`: the calls that yield them, the last of which yields nothing.
* `Bits.indices_eq_onesFrom`: from the first word on, the ones of all words.
-/

namespace RowSieve.Bits

/-- The ones of a row of words, numbered from a word on. -/
def onesFrom (words : List UInt64) (start : Nat) : List Nat :=
  (words.zipIdx start).flatMap fun (word, position) => (Word.ones word).map (64 * position + ·)

@[simp] theorem onesFrom_nil (start : Nat) : onesFrom [] start = [] := rfl

theorem onesFrom_cons (word : UInt64) (rest : List UInt64) (start : Nat) :
    onesFrom (word :: rest) start =
      (Word.ones word).map (64 * start + ·) ++ onesFrom rest (start + 1) := by
  rw [onesFrom, List.zipIdx_cons, List.flatMap_cons, onesFrom]

@[simp] theorem onesFrom_zero_cons (rest : List UInt64) (start : Nat) :
    onesFrom (0 :: rest) start = onesFrom rest (start + 1) := by
  rw [onesFrom_cons, Word.ones, if_pos rfl, List.map_nil, List.nil_append]

/-- The lowest one of the first word comes first. -/
theorem onesFrom_cons_of_ne_zero {word : UInt64} (h : word ≠ 0) (rest : List UInt64) (start : Nat) :
    onesFrom (word :: rest) start =
      (64 * start + Word.lowest word) :: onesFrom (Word.dropLowest word :: rest) start := by
  rw [onesFrom_cons, Word.ones_eq_cons h, List.map_cons, List.cons_append, ← onesFrom_cons]

theorem length_onesFrom (words : List UInt64) (start : Nat) :
    (onesFrom words start).length = (words.flatMap Word.ones).length := by
  induction words generalizing start with
  | nil => rfl
  | cons word rest ih =>
      rw [onesFrom_cons, List.length_append, List.length_map, ih, List.flatMap_cons,
        List.length_append]

namespace Cursor

/-- The ones that a cursor has not come to yet. -/
def remaining (cursor : Cursor) : List Nat :=
  onesFrom (cursor.current :: cursor.words.toList.drop (cursor.position + 1)) cursor.position

/-- **One step** takes the first of the ones that remain, and ends when none do. -/
theorem next?_spec (cursor : Cursor) :
    match cursor.next? with
    | some (index, later) => cursor.remaining = index :: later.remaining
    | none => cursor.remaining = [] := by
  induction cursor using next?.induct with
  | case1 cursor hc =>
      rw [next?, if_pos hc]
      dsimp only
      rw [remaining, onesFrom_cons_of_ne_zero hc, Nat.mul_comm]
      rfl
  | case2 cursor hc hlt ih =>
      -- the word is used up, and what remains begins at the next one
      have hstep : cursor.remaining =
          remaining ⟨cursor.words, cursor.position + 1, cursor.words[cursor.position + 1]⟩ := by
        rw [remaining, remaining, not_not.mp hc, onesFrom_zero_cons]
        dsimp only
        rw [List.drop_eq_getElem_cons (by simpa using hlt), Array.getElem_toList]
      rw [next?, if_neg hc, dif_pos hlt, hstep]
      exact ih
  | case3 cursor hc hlt =>
      rw [next?, if_neg hc, dif_neg hlt]
      dsimp only
      rw [remaining, not_not.mp hc, onesFrom_zero_cons,
        List.drop_eq_nil_of_le (by simpa using hlt), onesFrom_nil]

/-- **A whole run** yields the ones that remain. -/
theorem toList_eq (cursor : Cursor) : cursor.toList = cursor.remaining := by
  induction cursor using toList.induct with
  | case1 cursor index later h ih =>
      have hstep := cursor.next?_spec
      rw [h] at hstep
      rw [toList, h]
      dsimp only
      rw [ih, hstep]
  | case2 cursor h =>
      have hstep := cursor.next?_spec
      rw [h] at hstep
      rw [toList, h]
      exact hstep.symm

/-- The calls of a cursor yield these indices, one after another, and then nothing. -/
inductive Yields : Cursor → List Nat → Prop where
  | done {cursor : Cursor} (h : cursor.next? = none) : Yields cursor []
  | step {cursor later : Cursor} {index : Nat} {rest : List Nat}
      (h : cursor.next? = some (index, later)) (hrest : Yields later rest) :
      Yields cursor (index :: rest)

theorem yields_toList (cursor : Cursor) : cursor.Yields cursor.toList := by
  induction cursor using toList.induct with
  | case1 cursor index later h ih =>
      rw [toList, h]
      exact .step h ih
  | case2 cursor h =>
      rw [toList, h]
      exact .done h

/-- The calls of a cursor yield one list of indices only. -/
theorem Yields.unique {cursor : Cursor} {left right : List Nat} (hl : cursor.Yields left)
    (hr : cursor.Yields right) : left = right := by
  induction hl generalizing right with
  | done h =>
      cases hr with
      | done => rfl
      | step h' => cases h.symm.trans h'
  | step h _ ih =>
      cases hr with
      | done h' => cases h'.symm.trans h
      | step h' hrest =>
          cases h.symm.trans h'
          rw [ih hrest]

theorem remaining_start (words : Array UInt64) :
    (start words).remaining = onesFrom words.toList 0 := by
  rw [remaining, start]
  dsimp only
  cases h : words.toList with
  | nil =>
      have hnil : words = #[] := Array.toList_eq_nil_iff.mp h
      subst hnil
      rfl
  | cons word rest =>
      have hget : words[0]? = some word := by
        rw [← Array.getElem?_toList, h]
        rfl
      rw [hget]
      rfl

end Cursor

/-- **The ones of a bit string** are those of its words. -/
theorem indices_eq_onesFrom (bits : Bits) : bits.indices = onesFrom bits.words.toList 0 := by
  rw [indices, Cursor.toList_eq, Cursor.remaining_start]

end RowSieve.Bits

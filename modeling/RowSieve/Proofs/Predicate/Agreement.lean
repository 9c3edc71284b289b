import RowSieve.Proofs.Predicate

/-!
# Types decide whether a predicate gives bits

Whether a predicate gives bits, and the error that it ends in otherwise, depends on the types of the
columns it reads, not on their cells or on how many these are.

* `Test.bits_of_kind_eq`: a test of two columns of one type.
* `Predicate.evaluate_of_kind_eq`: a predicate over two provisions of columns of the same types.
-/

namespace RowSieve

open Outcome

namespace Test

theorem compareBits_of_kind_eq {op : CompareOp} {literal : Literal} {name : String}
    {left right : Column} (hl : left.WellFormed) (hr : right.WellFormed)
    (hk : left.kind = right.kind) :
    EndAlike id (compareBits op literal name left) (compareBits op literal name right) := by
  obtain ⟨kind, slots, validity⟩ := left
  obtain ⟨kind', slots', validity'⟩ := right
  obtain rfl : kind = kind' := hk
  rw [compareBits, compareBits]
  dsimp only
  split
  · exact .error _
  · split
    · exact .error _
    next test _ =>
      obtain ⟨bits, hbits⟩ := exists_bits_of_slots hl test
      obtain ⟨others, hothers⟩ := exists_bits_of_slots hr test
      exact .of_eq_ok hbits hothers

theorem trueBits_of_kind_eq {name : String} {left right : Column} (hl : left.WellFormed)
    (hr : right.WellFormed) (hk : left.kind = right.kind) :
    EndAlike id (trueBits name left) (trueBits name right) := by
  obtain ⟨kind, slots, validity⟩ := left
  obtain ⟨kind', slots', validity'⟩ := right
  obtain rfl : kind = kind' := hk
  cases kind with
  | boolean =>
      rw [trueBits_eq hl, trueBits_eq hr]
      exact .ok _ _
  | _ => exact .error _

/-- **A test of two columns of one type** gives bits of both, or ends in one error. -/
theorem bits_of_kind_eq (test : Test) (name : String) {left right : Column}
    (hl : left.WellFormed) (hr : right.WellFormed) (hk : left.kind = right.kind) :
    EndAlike id (test.bits name left) (test.bits name right) := by
  cases test with
  | compare op literal => exact compareBits_of_kind_eq hl hr hk
  | isTrue => exact trueBits_of_kind_eq hl hr hk
  | isNull | isNotNull =>
      rw [bits, bits, validBits_eq hl, validBits_eq hr]
      exact .ok _ _

end Test

namespace Predicate

/-- Two pairs of bit strings, each equally long, combined. -/
theorem endAlike_combine {ε : Type} {wrap : DataError → ε} {op : Bits → Bits → Except Fault Bits}
    (hop : ∀ {left right : Bits}, left.WellFormed → right.WellFormed → left.length = right.length →
      ∃ bits, op left right = .ok bits) {rows rows' : Nat} {left right : Outcome DataError Bits}
    {left' right' : Outcome ε Bits} (hl : EndAlike wrap left left') (hr : EndAlike wrap right right')
    (hrows : ∀ bits, left = .ok bits ∨ right = .ok bits → bits.WellFormed ∧ bits.length = rows)
    (hrows' : ∀ bits, left' = .ok bits ∨ right' = .ok bits →
      bits.WellFormed ∧ bits.length = rows') :
    EndAlike wrap (left >>= fun a => right >>= fun b => id (ofFaulty (op a b)))
      (left' >>= fun a => right' >>= fun b => mapError wrap (ofFaulty (op a b))) := by
  refine hl.bind fun a a' ha ha' => hr.bind fun b b' hb hb' => ?_
  obtain ⟨hawf, hal⟩ := hrows a (.inl ha)
  obtain ⟨hbwf, hbl⟩ := hrows b (.inr hb)
  obtain ⟨hawf', hal'⟩ := hrows' a' (.inl ha')
  obtain ⟨hbwf', hbl'⟩ := hrows' b' (.inr hb')
  obtain ⟨bits, hbits⟩ := hop hawf hbwf (hal.trans hbl.symm)
  obtain ⟨others, hothers⟩ := hop hawf' hbwf' (hal'.trans hbl'.symm)
  rw [hbits, hothers]
  exact .ok bits others

/-- **A predicate over columns of the same types**, wherever these come from and however many rows
they have, gives bits both times or ends in one error. -/
theorem evaluate_of_kind_eq {ε : Type} {lookup : String → Outcome DataError Column}
    {others : String → Outcome ε Column} {wrap : DataError → ε} {rows rows' : Nat}
    (hl : ∀ name column, lookup name = .ok column → column.WellFormed ∧ column.length = rows)
    (ho : ∀ name column, others name = .ok column → column.WellFormed ∧ column.length = rows')
    {predicate : Predicate} (hk : ∀ name ∈ predicate.columns, ∃ left right,
      lookup name = .ok left ∧ others name = .ok right ∧ left.kind = right.kind) :
    EndAlike wrap (predicate.evaluate lookup id) (predicate.evaluate others (mapError wrap)) := by
  have hbits : ∀ (predicate : Predicate) (bits : Bits), predicate.evaluate lookup id = .ok bits →
      bits.WellFormed ∧ bits.length = rows := fun predicate bits h => by
    obtain ⟨hwf, hlen, -⟩ := evaluate_eq_ok (fun _ _ => id) hl h
    exact ⟨hwf, hlen⟩
  have hbits' : ∀ (predicate : Predicate) (bits : Bits),
      predicate.evaluate others (mapError wrap) = .ok bits →
      bits.WellFormed ∧ bits.length = rows' := fun predicate bits h => by
    obtain ⟨hwf, hlen, -⟩ := evaluate_eq_ok (fun _ _ => mapError_eq_ok.mp) ho h
    exact ⟨hwf, hlen⟩
  induction predicate with
  | leaf name test =>
      obtain ⟨left, right, hleft, hright, hkind⟩ := hk name (by simp)
      rw [evaluate, evaluate, hleft, hright]
      exact (test.bits_of_kind_eq name (hl _ _ hleft).1 (ho _ _ hright).1 hkind).mapError
  | and left right ihl ihr =>
      simp only [mem_columns_and] at hk
      refine endAlike_combine (fun hwf hwf' hlen => ?_) (ihl fun name hn => hk name (.inl hn))
        (ihr fun name hn => hk name (.inr hn)) (fun bits h => h.elim (hbits _ _) (hbits _ _))
        fun bits h => h.elim (hbits' _ _) (hbits' _ _)
      exact (Bits.and_eq_ok hwf hwf' hlen).imp fun _ => And.left
  | or left right ihl ihr =>
      simp only [mem_columns_or] at hk
      refine endAlike_combine (fun hwf hwf' hlen => ?_) (ihl fun name hn => hk name (.inl hn))
        (ihr fun name hn => hk name (.inr hn)) (fun bits h => h.elim (hbits _ _) (hbits _ _))
        fun bits h => h.elim (hbits' _ _) (hbits' _ _)
      exact (Bits.or_eq_ok hwf hwf' hlen).imp fun _ => And.left
  | not inner ih => exact (ih hk).bind fun a b _ _ => .ok a.not b.not

end Predicate

end RowSieve

import RowSieve.Predicate.Evaluate
import RowSieve.Proofs.Binary64.Arithmetic
import RowSieve.Proofs.Table

/-!
# What a predicate says of a row

`Predicate.Holds` says of the cells of one row, each under the name of its column, whether they
satisfy a predicate: comparisons by exact values, never of a null, and connectives with two truth
values.  Nothing in it speaks of bits, slots or validities.

* `Test.bits_eq_ok`: the bits of a leaf are the rows whose cell passes the test.
* `Predicate.evaluate_eq_ok`: the bits of a predicate are the rows that satisfy it, wherever the
  columns come from.
* `Table.select_eq_ok`: the mask that a predicate selects from a table.
-/

namespace RowSieve

/-! ### Comparisons -/

namespace CompareOp

/-- The comparison of two members of an ordered type. -/
def Relates {α : Type} [LT α] [LE α] (op : CompareOp) (left right : α) : Prop :=
  match op with
  | .eq => left = right
  | .ne => left ≠ right
  | .lt => left < right
  | .lte => left ≤ right
  | .gt => right < left
  | .gte => right ≤ left

/-- The comparison of two numbers, absent where there is none: the absent one is equal to itself,
different from every number, and in no order with anything. -/
def RelatesNumbers (op : CompareOp) : Option Extended → Option Extended → Prop
  | some left, some right => op.Relates left right
  | none, none => op = .eq
  | _, _ => op = .ne

/-- **What a comparison says of a value and a literal.**  Integers and floating-point numbers
compare by their exact values, texts by the bytes of their encoding, truth values for equality
only.  Nothing is said of a null. -/
def Holds (op : CompareOp) : Scalar → Literal → Prop
  | .int left, .int right => op.Relates left.toInt right.toInt
  | .int left, .float right => op.RelatesNumbers (some (Extended.ofInt left.toInt)) right.value?
  | .float left, .int right => op.RelatesNumbers left.value? (some (Extended.ofInt right.toInt))
  | .float left, .float right => op.RelatesNumbers left.value? right.value?
  | .boolean left, .boolean right => op = .eq ∧ left = right ∨ op = .ne ∧ left ≠ right
  | .string left, .string right => op.Relates left.toUTF8.data.toList right.toUTF8.data.toList
  | _, _ => False

end CompareOp

/-- What a test says of a value. -/
def Test.Holds (value : Scalar) : Test → Prop
  | .compare op literal => op.Holds value literal
  | .isTrue => value = .boolean true
  | .isNull => value = .null
  | .isNotNull => value ≠ .null

/-- **What a predicate says of a row**, given by its cells. -/
def Predicate.Holds (cells : String → Scalar) : Predicate → Prop
  | .leaf column test => test.Holds (cells column)
  | .and left right => left.Holds cells ∧ right.Holds cells
  | .or left right => left.Holds cells ∨ right.Holds cells
  | .not inner => ¬ inner.Holds cells

/-! ### Orders computed and meant -/

namespace CompareOp

/-- A computed order decides a comparison. -/
theorem holds_iff {α : Type} [LT α] [LE α] {left right : α} {order : Ordering}
    (hlt : order = .lt ↔ left < right) (heq : order = .eq ↔ left = right)
    (hgt : order = .gt ↔ right < left) (hle : left ≤ right ↔ ¬ right < left)
    (hge : right ≤ left ↔ ¬ left < right) (op : CompareOp) :
    op.holds order = true ↔ op.Relates left right := by
  cases op <;> simp [holds, Relates, hle, hge, ← hlt, ← heq, ← hgt]

/-- An order that is less and equal exactly where two values are is theirs. -/
theorem eq_compare {α : Type} [LinearOrder α] {left right : α} {order : Ordering}
    (hlt : order = .lt ↔ left < right) (heq : order = .eq ↔ left = right) :
    order = compare left right := by
  rcases lt_trichotomy left right with h | h | h
  · rw [hlt.mpr h, compare_lt_iff_lt.mpr h]
  · rw [heq.mpr h, compare_eq_iff_eq.mpr h]
  · have hne : order ≠ .lt := fun ho => h.not_gt (hlt.mp ho)
    have hne' : order ≠ .eq := fun ho => h.ne' (heq.mp ho)
    rw [compare_gt_iff_gt.mpr h]
    cases order <;> simp_all

theorem holds_iff_of_linearOrder {α : Type} [LinearOrder α] {left right : α} {order : Ordering}
    (hlt : order = .lt ↔ left < right) (heq : order = .eq ↔ left = right) (op : CompareOp) :
    op.holds order = true ↔ op.Relates left right := by
  obtain rfl := eq_compare hlt heq
  exact holds_iff hlt heq compare_gt_iff_gt not_lt.symm not_lt.symm op

theorem compare_bytes_lt : ∀ left right : List UInt8, compare left right = .lt ↔ left < right
  | [], [] => by simp
  | [], _ :: _ => by simp [List.compare_nil_cons]
  | _ :: _, [] => by simp [List.compare_cons_nil]
  | a :: left, b :: right => by
      have hab : compare a b = .lt ↔ a < b := compareOfLessAndEq_eq_lt
      rw [List.compare_cons_cons, List.cons_lt_cons_iff, Ordering.then_eq_lt, hab,
        compare_bytes_lt left right, Std.compare_eq_iff_eq]

/-- Texts are ordered by their bytes. -/
theorem holds_compareBytes (op : CompareOp) (left right : String) :
    op.holds (Text.compareBytes left right) = true ↔
      op.Relates left.toUTF8.data.toList right.toUTF8.data.toList :=
  holds_iff (compare_bytes_lt _ _) Std.compare_eq_iff_eq
    (Std.OrientedCmp.gt_iff_lt.trans (compare_bytes_lt _ _)) Iff.rfl Iff.rfl op

theorem holds_compare_int (op : CompareOp) (left right : Int) :
    op.holds (compare left right) = true ↔ op.Relates left right :=
  holds_iff_of_linearOrder compare_lt_iff_lt compare_eq_iff_eq op

/-- The reverse of a computed order is the order of the reversed pair. -/
theorem swap_lt_iff {α : Type} [LinearOrder α] {left right : α} {order : Ordering}
    (hlt : order = .lt ↔ left < right) (heq : order = .eq ↔ left = right) :
    (order.swap = .lt ↔ right < left) ∧ (order.swap = .eq ↔ right = left) := by
  obtain rfl := eq_compare hlt heq
  rw [← Std.OrientedOrd.eq_swap]
  exact ⟨compare_lt_iff_lt, compare_eq_iff_eq⟩

theorem holdsOf_compareInt? (op : CompareOp) (a : Int64) (x : Binary64) :
    op.holdsOf (Binary64.compareInt? a x) = true ↔
      op.RelatesNumbers (some (Extended.ofInt a.toInt)) x.value? := by
  cases hn : x.isNaN with
  | true =>
      rw [Binary64.compareInt?, hn, Binary64.value?_eq_none_iff.mpr hn]
      simp [holdsOf, RelatesNumbers]
  | false =>
      obtain ⟨order, ho, right, hr, hlt, heq⟩ := Binary64.compareInt?_eq a hn
      rw [ho, hr]
      exact holds_iff_of_linearOrder hlt heq op

theorem holdsOf_swap_compareInt? (op : CompareOp) (a : Int64) (x : Binary64) :
    op.holdsOf ((Binary64.compareInt? a x).map Ordering.swap) = true ↔
      op.RelatesNumbers x.value? (some (Extended.ofInt a.toInt)) := by
  cases hn : x.isNaN with
  | true =>
      rw [Binary64.compareInt?, hn, Binary64.value?_eq_none_iff.mpr hn]
      simp [holdsOf, RelatesNumbers]
  | false =>
      obtain ⟨order, ho, right, hr, hlt, heq⟩ := Binary64.compareInt?_eq a hn
      obtain ⟨hlt', heq'⟩ := swap_lt_iff hlt heq
      rw [ho, hr]
      exact holds_iff_of_linearOrder hlt' heq' op

theorem holdsOfFloats_iff (op : CompareOp) (x y : Binary64) :
    op.holdsOfFloats x y = true ↔ op.RelatesNumbers x.value? y.value? := by
  have hsame : x.same y = true ↔ x.value? = y.value? := Binary64.same_iff
  cases hx : x.isNaN with
  | true =>
      have hvx := Binary64.value?_eq_none_iff.mpr hx
      have hcmp : x.compare? y = none := by rw [Binary64.compare?, hx]; rfl
      cases hy : y.value? with
      | none =>
          have hs : x.same y = true := hsame.mpr (hvx.trans hy.symm)
          rw [holdsOfFloats, hcmp, hvx, hs]
          cases op <;> simp [RelatesNumbers, isEquality]
      | some right =>
          have hs : x.same y = false := by simp [← Bool.not_eq_true, hsame, hvx, hy]
          rw [holdsOfFloats, hcmp, hvx, hs]
          cases op <;> simp [RelatesNumbers, isEquality]
  | false =>
      cases hy : y.isNaN with
      | true =>
          have hvx := Binary64.value?_eq_some hx
          have hvy := Binary64.value?_eq_none_iff.mpr hy
          have hcmp : x.compare? y = none := by rw [Binary64.compare?, hx, hy]; rfl
          have hs : x.same y = false := by simp [← Bool.not_eq_true, hsame, hvx, hvy]
          rw [holdsOfFloats, hcmp, hvx, hvy, hs]
          cases op <;> simp [RelatesNumbers, isEquality]
      | false =>
          obtain ⟨order, ho, left, right, hl, hr, hlt, heq⟩ := Binary64.compare?_eq hx hy
          have hop := holds_iff_of_linearOrder hlt heq op
          rw [hl, hr, Option.some.injEq, ← heq] at hsame
          rw [holdsOfFloats, ho, hl, hr, RelatesNumbers, ← hop]
          cases hs : x.same y <;> cases op <;> simp_all [holds, isEquality]

theorem literal_of_slotTest? {op : CompareOp} {kind : Kind} {literal : Literal}
    {holds : kind.Slot → Bool} (h : op.slotTest? kind literal = some holds) (hk : kind = .boolean) :
    literal.kind = .boolean := by
  subst hk
  cases literal <;> first | rfl | cases h

/-- **The comparison of slots** says of a value what it means. -/
theorem slotTest?_eq_some {op : CompareOp} {kind : Kind} {literal : Literal}
    {holds : kind.Slot → Bool} (h : op.slotTest? kind literal = some holds)
    (hop : kind = .boolean → op.isEquality = true) (slot : kind.Slot) :
    holds slot = true ↔ op.Holds (.ofSlot kind slot) literal := by
  cases kind with
  | int =>
      cases literal <;> cases h
      · exact holds_compare_int op _ _
      · exact holdsOf_compareInt? op _ _
  | float =>
      cases literal <;> cases h
      · exact holdsOf_swap_compareInt? op _ _
      · exact holdsOfFloats_iff op _ _
  | boolean =>
      cases literal with
      | boolean value =>
          cases h
          show _ ↔ op = .eq ∧ slot = value ∨ op = .ne ∧ slot ≠ value
          cases op <;> simp [holds, isEquality] at hop ⊢
      | _ => cases h
  | string =>
      cases literal <;> cases h
      exact holds_compareBytes op _ _

end CompareOp

/-! ### The bits of a leaf -/

namespace Test

/-- The bits are those rows of a column whose cells satisfy a condition. -/
def Marks (bits : Bits) (column : Column) (holds : Scalar → Prop) : Prop :=
  bits.WellFormed ∧ bits.length = column.length ∧
    ∀ row < column.length, bits.test row = true ↔ holds (column.cell row)

theorem marks_ofList {column : Column} {holds : Scalar → Prop} {values : List Bool}
    (hl : values.length = column.length)
    (h : ∀ row (hr : row < values.length), values[row] = true ↔ holds (column.cell row)) :
    Marks (.ofList values) column holds := by
  refine ⟨Bits.wellFormed_ofList values, by simpa using hl, fun row hr => ?_⟩
  rw [Bits.test_ofList (hl ▸ hr)]
  exact h row _

/-- Taking out the nulls succeeds: there is a bit of validity for every slot. -/
theorem exists_bits_of_slots {column : Column} (hc : column.WellFormed)
    (test : column.kind.Slot → Bool) :
    ∃ bits, (match column.validity with
      | some validity => Outcome.ofFaulty ((Bits.ofList (column.slots.toList.map test)).and validity)
      | none => .ok (Bits.ofList (column.slots.toList.map test)) : Outcome DataError Bits) =
        .ok bits := by
  cases hv : column.validity with
  | none => exact ⟨_, rfl⟩
  | some validity =>
      obtain ⟨hwf, hl, -⟩ := hc validity hv
      obtain ⟨bits, hand, -⟩ := Bits.and_eq_ok
        (Bits.wellFormed_ofList (column.slots.toList.map test)) hwf (by simp [hl, Column.length])
      exact ⟨bits, Outcome.ofFaulty_eq_ok.mpr hand⟩

/-- Slots tested one by one, and the nulls taken out. -/
theorem marks_slots {column : Column} (hc : column.WellFormed) {test : column.kind.Slot → Bool}
    {holds : Scalar → Prop} (hslot : ∀ slot, test slot = true ↔ holds (.ofSlot column.kind slot))
    (hnull : ¬ holds .null) {bits : Bits}
    (h : (match column.validity with
      | some validity => Outcome.ofFaulty ((Bits.ofList (column.slots.toList.map test)).and validity)
      | none => .ok (Bits.ofList (column.slots.toList.map test)) : Outcome DataError Bits) =
        .ok bits) : Marks bits column holds := by
  have hlen : (column.slots.toList.map test).length = column.length := by simp [Column.length]
  have hcell : ∀ row (hr : row < (column.slots.toList.map test).length),
      column.marked row = true ∧ (column.slots.toList.map test)[row] = true ↔
        holds (column.cell row) := fun row hr => by
    have hr' : row < column.slots.size := by simpa using hr
    rw [Column.cell_of_some hc (Array.getElem?_eq_getElem hr'), List.getElem_map, hslot]
    cases column.marked row
    · simp [hnull]
    · simp
  split at h
  next validity hv =>
    rw [Outcome.ofFaulty_eq_ok] at h
    obtain ⟨hwf, hvl, -⟩ := hc validity hv
    obtain ⟨both, hand, hbwf, hbl, hbtest, -⟩ := Bits.and_eq_ok
      (Bits.wellFormed_ofList (column.slots.toList.map test)) hwf (by rw [hvl]; simpa using hlen)
    obtain rfl := Except.ok.inj (hand.symm.trans h)
    refine ⟨hbwf, by rw [hbl]; simpa using hlen, fun row hr => ?_⟩
    have hm : column.marked row = validity.test row := by rw [Column.marked, hv]; rfl
    rw [hbtest, Bool.and_eq_true, Bits.test_ofList (hlen ▸ hr), ← hcell row (hlen ▸ hr), hm,
      and_comm]
  next hv =>
    obtain rfl := Except.ok.inj h
    refine marks_ofList hlen fun row hr => ?_
    have hm : column.marked row = true := by rw [Column.marked, hv]; rfl
    rw [← hcell row hr, hm]
    simp

theorem compareBits_eq_ok {op : CompareOp} {literal : Literal} {name : String} {column : Column}
    {bits : Bits} (hc : column.WellFormed)
    (h : compareBits op literal name column = .ok bits) :
    Marks bits column (op.Holds · literal) := by
  rw [compareBits] at h
  split at h
  · cases h
  next hguard =>
    split at h
    · cases h
    next test htest =>
      have hop : column.kind = .boolean → op.isEquality = true := fun hk => by
        have hl := CompareOp.literal_of_slotTest? htest hk
        simpa [hk, hl] using hguard
      exact marks_slots hc (CompareOp.slotTest?_eq_some htest hop)
        (by cases literal <;> exact id) h

/-- The validity is read where the slot is true only. -/
theorem trueBits_eq {name : String} {slots : Array Bool} {validity : Option Bits}
    (hc : Column.WellFormed ⟨.boolean, slots, validity⟩) :
    trueBits name ⟨.boolean, slots, validity⟩ =
      .ok (.ofList (slots.toList.zipIdx.map fun entry : Bool × Nat =>
        entry.1 && Column.marked ⟨.boolean, slots, validity⟩ entry.2)) := by
  have hvalues : slots.toList.zipIdx.mapM (fun entry : Bool × Nat =>
      if entry.1 then Column.isValid ⟨.boolean, slots, validity⟩ entry.2 else .ok false) =
        .ok (slots.toList.zipIdx.map fun entry : Bool × Nat =>
          entry.1 && Column.marked ⟨.boolean, slots, validity⟩ entry.2) :=
    Outcome.mapM_eq_map fun entry he => by
      have hr : entry.2 < slots.size := by
        simpa using List.snd_lt_of_mem_zipIdx he
      cases entry.1
      · rfl
      · exact Column.isValid_eq hc hr
  rw [trueBits, Column.booleans?]
  dsimp only
  rw [hvalues]
  rfl

theorem trueBits_eq_ok {name : String} {column : Column} {bits : Bits} (hc : column.WellFormed)
    (h : trueBits name column = .ok bits) : Marks bits column (· = .boolean true) := by
  obtain ⟨kind, slots, validity⟩ := column
  cases kind with
  | boolean =>
      obtain rfl := Except.ok.inj ((trueBits_eq hc).symm.trans h)
      refine marks_ofList (by simp [Column.length]) fun row hr => ?_
      have hr' : row < slots.size := by simpa using hr
      rw [Column.cell_of_some hc (Array.getElem?_eq_getElem hr'), List.getElem_map,
        List.getElem_zipIdx, Nat.zero_add]
      cases Column.marked ⟨.boolean, slots, validity⟩ row
      · simp
      · simp [Scalar.ofSlot]
  | _ => cases h

theorem validBits_eq {column : Column} (hc : column.WellFormed) (valid : Bool) :
    validBits valid column =
      .ok (.ofList ((List.range column.length).map fun row => column.marked row == valid)) := by
  have hvalues : ((List.range column.length).mapM fun row =>
      (column.isValid row).map (· == valid)) =
        .ok ((List.range column.length).map fun row => column.marked row == valid) :=
    Outcome.mapM_eq_map fun row hr => by
      rw [Column.isValid_eq hc (List.mem_range.mp hr)]
      rfl
  rw [validBits, hvalues]
  rfl

theorem validBits_eq_ok {valid : Bool} {column : Column} {bits : Bits} (hc : column.WellFormed)
    (h : validBits valid column = .ok bits) :
    Marks bits column (fun cell => cell.isNull = !valid) := by
  obtain rfl := Except.ok.inj ((validBits_eq hc valid).symm.trans h)
  refine marks_ofList (by simp) fun row hr => ?_
  rw [List.getElem_map, List.getElem_range, Column.isNull_cell hc (by simpa using hr)]
  cases column.marked row <;> cases valid <;> simp

theorem isNull_iff {value : Scalar} : value.isNull = true ↔ value = .null := by
  cases value <;> simp [Scalar.isNull]

/-- **The bits of a leaf** are the rows whose cell passes the test. -/
theorem bits_eq_ok {test : Test} {name : String} {column : Column} {bits : Bits}
    (hc : column.WellFormed) (h : test.bits name column = .ok bits) :
    Marks bits column test.Holds := by
  cases test with
  | compare op literal => exact compareBits_eq_ok hc h
  | isTrue => exact trueBits_eq_ok hc h
  | isNull =>
      obtain ⟨hwf, hl, hbits⟩ := validBits_eq_ok hc h
      exact ⟨hwf, hl, fun row hr => (hbits row hr).trans isNull_iff⟩
  | isNotNull =>
      obtain ⟨hwf, hl, hbits⟩ := validBits_eq_ok hc h
      refine ⟨hwf, hl, fun row hr => (hbits row hr).trans ?_⟩
      show (column.cell row).isNull = false ↔ column.cell row ≠ .null
      rw [← Bool.not_eq_true, isNull_iff]

/-- A test that gives no bits was put to a column of the wrong type. -/
theorem bits_eq_error {test : Test} {name : String} {column : Column} {error : DataError}
    (h : test.bits name column = .error (.error error)) :
    ∃ context expected actual, error = .typeMismatch context expected actual := by
  cases test with
  | compare op literal =>
      rw [bits, compareBits] at h
      split at h
      · cases h
        exact ⟨_, _, _, rfl⟩
      · split at h
        · cases h
          exact ⟨_, _, _, rfl⟩
        · dsimp only at h
          split at h
          · exact absurd h Outcome.ofFaulty_ne_error
          · cases h
  | isTrue =>
      rw [bits, trueBits] at h
      split at h
      · cases h
        exact ⟨_, _, _, rfl⟩
      · exact absurd h Outcome.ofFaulty_ne_error
  | isNull => exact absurd h Outcome.ofFaulty_ne_error
  | isNotNull => exact absurd h Outcome.ofFaulty_ne_error

end Test

/-! ### The bits of a predicate -/

namespace Predicate

variable {ε : Type}

/-- The cells of a row, where a computation provides the columns. -/
def cellsOf (lookup : String → Outcome ε Column) (row : Nat) (name : String) : Scalar :=
  match lookup name with
  | .ok column => column.cell row
  | .error _ => .null

/-- **The bits of a predicate** are the rows that satisfy it, wherever the columns come from, if
these are equally long. -/
theorem evaluate_eq_ok {lookup : String → Outcome ε Column}
    {settle : Outcome DataError Bits → Outcome ε Bits} {rows : Nat}
    (hsettle : ∀ outcome bits, settle outcome = .ok bits → outcome = .ok bits)
    (hlookup : ∀ name column, lookup name = .ok column →
      column.WellFormed ∧ column.length = rows) {predicate : Predicate} {bits : Bits}
    (h : predicate.evaluate lookup settle = .ok bits) :
    bits.WellFormed ∧ bits.length = rows ∧
      ∀ row < rows, bits.test row = true ↔ predicate.Holds (cellsOf lookup row) := by
  induction predicate generalizing bits with
  | leaf name test =>
      obtain ⟨column, hcolumn, hbits⟩ := Outcome.bind_eq_ok.mp h
      obtain ⟨hwf, hl⟩ := hlookup name column hcolumn
      obtain ⟨hbwf, hbl, hrows⟩ := Test.bits_eq_ok hwf (hsettle _ _ hbits)
      refine ⟨hbwf, hbl.trans hl, fun row hr => ?_⟩
      rw [hrows row (hl ▸ hr), Holds, cellsOf, hcolumn]
  | and left right ihl ihr =>
      obtain ⟨leftBits, hleft, h⟩ := Outcome.bind_eq_ok.mp h
      obtain ⟨rightBits, hright, h⟩ := Outcome.bind_eq_ok.mp h
      obtain ⟨hlwf, hll, hlrows⟩ := ihl hleft
      obtain ⟨hrwf, hrl, hrrows⟩ := ihr hright
      obtain ⟨both, hand, hwf, hl, htest, -⟩ := Bits.and_eq_ok hlwf hrwf (hll.trans hrl.symm)
      obtain rfl := Except.ok.inj (hand.symm.trans (Outcome.ofFaulty_eq_ok.mp (hsettle _ _ h)))
      refine ⟨hwf, hl.trans hll, fun row hr => ?_⟩
      rw [htest, Bool.and_eq_true, hlrows row hr, hrrows row hr, Holds]
  | or left right ihl ihr =>
      obtain ⟨leftBits, hleft, h⟩ := Outcome.bind_eq_ok.mp h
      obtain ⟨rightBits, hright, h⟩ := Outcome.bind_eq_ok.mp h
      obtain ⟨hlwf, hll, hlrows⟩ := ihl hleft
      obtain ⟨hrwf, hrl, hrrows⟩ := ihr hright
      obtain ⟨either, hor, hwf, hl, htest, -⟩ := Bits.or_eq_ok hlwf hrwf (hll.trans hrl.symm)
      obtain rfl := Except.ok.inj (hor.symm.trans (Outcome.ofFaulty_eq_ok.mp (hsettle _ _ h)))
      refine ⟨hwf, hl.trans hll, fun row hr => ?_⟩
      rw [htest, Bool.or_eq_true, hlrows row hr, hrrows row hr, Holds]
  | not inner ih =>
      obtain ⟨innerBits, hinner, h⟩ := Outcome.bind_eq_ok.mp h
      obtain ⟨hwf, hl, hrows⟩ := ih hinner
      obtain rfl := Except.ok.inj h
      refine ⟨Bits.wellFormed_not hwf, hl, fun row hr => ?_⟩
      rw [Bits.test_not hwf, decide_eq_true (hl ▸ hr), Bool.true_and, Bool.not_eq_true', Holds,
        ← hrows row hr, Bool.not_eq_true]

theorem mem_columnsAfter {predicate : Predicate} {listed : List String} {name : String} :
    name ∈ predicate.columnsAfter listed ↔ name ∈ listed ∨ name ∈ predicate.leaves.map (·.1) := by
  induction predicate generalizing listed with
  | leaf column test =>
      rw [columnsAfter]
      split
      next hc =>
        refine ⟨.inl, fun h => h.elim id fun hn => ?_⟩
        rw [List.mem_singleton.mp hn]
        exact hc
      next => exact List.mem_append
  | and left right ihl ihr | or left right ihl ihr =>
      rw [columnsAfter, ihr, ihl, leaves, List.map_append, List.mem_append, or_assoc]
  | not inner ih => exact ih

theorem mem_columns {predicate : Predicate} {name : String} :
    name ∈ predicate.columns ↔ name ∈ predicate.leaves.map (·.1) := by
  rw [columns, mem_columnsAfter, or_iff_right List.not_mem_nil]

@[simp] theorem mem_columns_leaf {name column : String} {test : Test} :
    name ∈ (leaf column test).columns ↔ name = column := by
  simp [mem_columns, leaves]

@[simp] theorem mem_columns_and {name : String} {left right : Predicate} :
    name ∈ (and left right).columns ↔ name ∈ left.columns ∨ name ∈ right.columns := by
  simp only [mem_columns, leaves, List.map_append, List.mem_append]

@[simp] theorem mem_columns_or {name : String} {left right : Predicate} :
    name ∈ (or left right).columns ↔ name ∈ left.columns ∨ name ∈ right.columns := by
  simp only [mem_columns, leaves, List.map_append, List.mem_append]

@[simp] theorem columns_not (inner : Predicate) : (not inner).columns = inner.columns := rfl

/-- A predicate says the same of two rows that agree on the columns it reads. -/
theorem holds_congr {predicate : Predicate} {cells others : String → Scalar}
    (h : ∀ name ∈ predicate.columns, cells name = others name) :
    predicate.Holds cells ↔ predicate.Holds others := by
  induction predicate with
  | leaf column test => rw [Holds, Holds, h column (by simp)]
  | and left right ihl ihr | or left right ihl ihr =>
      simp only [mem_columns_and, mem_columns_or] at h
      rw [Holds, Holds, ihl fun name hn => h name (.inl hn), ihr fun name hn => h name (.inr hn)]
  | not inner ih => rw [Holds, Holds, ih h]

/-- A predicate asks for none but the columns it reads. -/
theorem evaluate_congr {m : Type → Type} [Monad m] {lookup others : String → m Column}
    {settle : Outcome DataError Bits → m Bits} {predicate : Predicate}
    (h : ∀ name ∈ predicate.columns, lookup name = others name) :
    predicate.evaluate lookup settle = predicate.evaluate others settle := by
  induction predicate with
  | leaf name test => rw [evaluate, evaluate, h name (by simp)]
  | and left right ihl ihr | or left right ihl ihr =>
      simp only [mem_columns_and, mem_columns_or] at h
      rw [evaluate, evaluate, ihl fun name hn => h name (.inl hn),
        ihr fun name hn => h name (.inr hn)]
  | not inner ih => rw [evaluate, evaluate, ih h]

/-- A predicate that gives bits was provided with all the columns it reads. -/
theorem exists_of_evaluate {lookup : String → Outcome ε Column}
    {settle : Outcome DataError Bits → Outcome ε Bits} {predicate : Predicate} {bits : Bits}
    (h : predicate.evaluate lookup settle = .ok bits) {name : String}
    (hn : name ∈ predicate.columns) : ∃ column, lookup name = .ok column := by
  induction predicate generalizing bits with
  | leaf column test =>
      obtain ⟨found, hf, -⟩ := Outcome.bind_eq_ok.mp h
      rw [mem_columns_leaf.mp hn]
      exact ⟨found, hf⟩
  | and left right ihl ihr | or left right ihl ihr =>
      simp only [mem_columns_and, mem_columns_or] at hn
      obtain ⟨leftBits, hleft, h⟩ := Outcome.bind_eq_ok.mp h
      obtain ⟨rightBits, hright, -⟩ := Outcome.bind_eq_ok.mp h
      exact hn.elim (ihl hleft) (ihr hright)
  | not inner ih =>
      obtain ⟨innerBits, hinner, -⟩ := Outcome.bind_eq_ok.mp h
      exact ih hinner hn

/-- **A predicate that gives no bits** reads a column that is not provided, or puts a test to a
column of the wrong type. -/
theorem evaluate_eq_error {lookup : String → Outcome ε Column} {wrap : DataError → ε}
    {predicate : Predicate} {error : ε}
    (h : predicate.evaluate lookup (Outcome.mapError wrap) = .error (.error error)) :
    (∃ name ∈ predicate.columns, lookup name = .error (.error error)) ∨
      ∃ context expected actual, error = wrap (.typeMismatch context expected actual) := by
  simp only [mem_columns]
  -- bit strings of unequal lengths are a fault, not an error
  have hfaulty : ∀ {x : Except Fault Bits},
      Outcome.mapError wrap (Outcome.ofFaulty x) ≠ .error (.error error) := fun hx => by
    obtain ⟨cause, hc, -⟩ := Outcome.mapError_eq_error.mp hx
    exact Outcome.ofFaulty_ne_error hc
  induction predicate with
  | leaf name test =>
      rcases Outcome.bind_eq_error.mp h with h | ⟨column, -, h⟩
      · exact .inl ⟨name, List.mem_singleton_self name, h⟩
      · obtain ⟨cause, hc, rfl⟩ := Outcome.mapError_eq_error.mp h
        obtain ⟨context, expected, actual, rfl⟩ := Test.bits_eq_error hc
        exact .inr ⟨context, expected, actual, rfl⟩
  | and left right ihl ihr | or left right ihl ihr =>
      simp only [leaves, List.map_append, List.mem_append]
      rcases Outcome.bind_eq_error.mp h with h | ⟨leftBits, -, h⟩
      · refine (ihl h).imp_left ?_
        rintro ⟨name, hn, h⟩
        exact ⟨name, .inl hn, h⟩
      · rcases Outcome.bind_eq_error.mp h with h | ⟨rightBits, -, h⟩
        · refine (ihr h).imp_left ?_
          rintro ⟨name, hn, h⟩
          exact ⟨name, .inr hn, h⟩
        · exact absurd h hfaulty
  | not inner ih =>
      rcases Outcome.bind_eq_error.mp h with h | ⟨bits, -, h⟩
      · exact ih h
      · cases h

end Predicate

/-! ### Selecting rows of a table -/

namespace Table

/-- The cells of a row of a table, by column; a column that is not there has none. -/
def cells (table : Table) (row : Nat) (name : String) : Scalar :=
  (table.get? name).elim .null (·.cell row)

theorem column_eq_ok {table : Table} {name : String} {column : Column} :
    table.column name = .ok column ↔ table.get? name = some column := by
  rw [Table.column]
  cases table.get? name <;> simp

theorem WellFormed.wellFormed_of_column {table : Table} (h : table.WellFormed) {name : String}
    {column : Column} (hc : Outcome.ofExcept (table.column name) = .ok column) :
    column.WellFormed ∧ column.length = table.rowCount :=
  h.wellFormed_of_get? (column_eq_ok.mp (Outcome.ofExcept_eq_ok.mp hc))

theorem cellsOf_column (table : Table) (row : Nat) :
    Predicate.cellsOf (fun name => Outcome.ofExcept (table.column name)) row = table.cells row := by
  funext name
  rw [Predicate.cellsOf, cells, Table.column]
  cases table.get? name <;> rfl

/-- The bits of a predicate, one for every row of the table. -/
theorem WellFormed.evaluate_eq_ok {table : Table} (h : table.WellFormed) {predicate : Predicate}
    {bits : Bits}
    (hb : predicate.evaluate (fun name => Outcome.ofExcept (table.column name)) id = .ok bits) :
    bits.WellFormed ∧ bits.length = table.rowCount ∧
      ∀ row < table.rowCount, bits.test row = true ↔ predicate.Holds (table.cells row) := by
  simp only [← cellsOf_column]
  exact Predicate.evaluate_eq_ok (fun _ _ => id) (fun _ _ => h.wellFormed_of_column) hb

/-- **The mask that a predicate selects** has a bit for every row of the table, a one exactly where
the cells of the row satisfy the predicate. -/
theorem select_eq_ok {table : Table} (ht : table.Built) {predicate : Predicate} {mask : Mask}
    (h : table.select predicate = .ok mask) :
    mask.length = table.rowCount ∧
      ∀ row < table.rowCount, ∃ bit, mask.bits.get row = .ok bit ∧
        (bit = true ↔ predicate.Holds (table.cells row)) := by
  obtain ⟨bits, hbits, rfl⟩ := Outcome.map_eq_ok.mp h
  obtain ⟨-, hl, hrows⟩ := ht.wellFormed.evaluate_eq_ok hbits
  exact ⟨hl, fun row hr => ⟨bits.test row, Bits.get_of_lt (hl ▸ hr), hrows row hr⟩⟩

/-- A null, `2⁵³ + 1` and 7, beside `2⁵³`, what is not a number, and the negative zero. -/
def mixed : Table where
  columns := [
    ("n", ⟨.int, #[0, 9007199254740993, 7], some (.ofList [false, true, true])⟩),
    ("x", .ofFloats #[⟨0x4340000000000000⟩, ⟨0x7FF8000000000000⟩, ⟨0x8000000000000000⟩])]

/-- Neither `n ≤ 2⁵³`, as a floating-point number, nor `x = 0`. -/
def mixedPredicate : Predicate :=
  .and (.not (.leaf "n" (.compare .lte (.float ⟨0x4340000000000000⟩))))
    (.not (.leaf "x" (.compare .eq (.int 0))))

theorem built_mixed : mixed.Built := by
  refine built_iff.mpr ⟨fun entry he => ?_, by decide +kernel, by decide⟩
  simp only [mixed, List.mem_cons, List.not_mem_nil, or_false] at he
  rcases he with rfl | rfl
  · intro validity hv
    cases hv
    exact ⟨Bits.wellFormed_ofList _, by decide, by decide +kernel⟩
  · exact Column.wellFormed_of_validity_none rfl

/-- The null is no number below another, so the negation of a comparison holds of it; `2⁵³ + 1`
is not rounded. -/
theorem select_mixed :
    mixed.Built ∧ mixed.select mixedPredicate = .ok (.ofList [true, true, false]) ∧
      (Mask.ofList [true, true, false]).length = mixed.rowCount ∧
        ∀ row < mixed.rowCount, ∃ bit, (Mask.ofList [true, true, false]).bits.get row = .ok bit ∧
          (bit = true ↔ mixedPredicate.Holds (mixed.cells row)) := by
  have h : mixed.select mixedPredicate = .ok (.ofList [true, true, false]) := by decide +kernel
  exact ⟨built_mixed, h, select_eq_ok built_mixed h⟩

end Table

end RowSieve

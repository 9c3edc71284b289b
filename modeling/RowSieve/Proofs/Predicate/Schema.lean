import RowSieve.Proofs.Predicate.Typing

/-!
# The schema decides whether a predicate is accepted

A predicate is accepted when each of its leaves is well typed, and otherwise refused with the error
of the first leaf that is not.  Both are matters of the names and types of the columns alone.

* `Test.objection?_eq_none_iff`, `Test.objection?_eq_some_iff`: which tests suit a type, and what is
  told of those that do not.
* `Table.WellFormed.settles_evaluate`: evaluation ends as the search for an ill-typed leaf.
* `Table.Built.select_by_schema`: acceptance and refusal, and that no more than the names and types
  of the columns and the leaves of the predicate counts.
-/

namespace RowSieve

/-! ### Well-typed tests -/

/-- The types of numbers. -/
def Kind.Numeric : Kind → Prop
  | .int | .float => True
  | .boolean | .string => False

theorem Kind.comparesWith_iff {kind other : Kind} :
    kind.comparesWith other = true ↔ kind.Numeric ∧ other.Numeric ∨ kind = other := by
  cases kind <;> cases other <;> simp [comparesWith, Numeric]

theorem CompareOp.isEquality_iff {op : CompareOp} :
    op.isEquality = true ↔ op = .eq ∨ op = .ne := by
  cases op <;> simp [isEquality]

namespace Test

/-- **The test suits the columns of a type.** -/
inductive Suits : Kind → Test → Prop where
  | numbers {kind : Kind} {op : CompareOp} {literal : Literal} (hk : kind.Numeric)
      (hl : literal.kind.Numeric) : Suits kind (.compare op literal)
  | strings {op : CompareOp} {literal : Literal} (hl : literal.kind = .string) :
      Suits .string (.compare op literal)
  | booleans {op : CompareOp} {literal : Literal} (hl : literal.kind = .boolean)
      (ho : op = .eq ∨ op = .ne) : Suits .boolean (.compare op literal)
  | isTrue : Suits .boolean .isTrue
  | isNull (kind : Kind) : Suits kind .isNull
  | isNotNull (kind : Kind) : Suits kind .isNotNull

/-- **The test does not suit** the column of this name and type, with what is told about it. -/
inductive Misfits (name : String) : Kind → Test → DataError → Prop where
  | unlike {kind : Kind} {op : CompareOp} {literal : Literal}
      (hn : ¬ (kind.Numeric ∧ literal.kind.Numeric)) (hk : kind ≠ literal.kind) :
      Misfits name kind (.compare op literal)
        (.typeMismatch s!"comparison on column {name}" kind.name literal.kind.name)
  | unordered {op : CompareOp} {literal : Literal} (hl : literal.kind = .boolean)
      (ho : ¬ (op = .eq ∨ op = .ne)) :
      Misfits name .boolean (.compare op literal)
        (.typeMismatch s!"ordering comparison {op.name} on column {name}" "int, float or string"
          "boolean")
  | notBoolean {kind : Kind} (hk : kind ≠ .boolean) :
      Misfits name kind .isTrue (.typeMismatch s!"predicate column {name}" "boolean" kind.name)

section Objections

variable {test : Test} {name : String} {kind : Kind} {error : DataError}

theorem suits_compare_iff {op : CompareOp} {literal : Literal} :
    Suits kind (.compare op literal) ↔
      (kind.Numeric ∧ literal.kind.Numeric ∨ kind = literal.kind) ∧
        (kind = .boolean ∧ literal.kind = .boolean → op = .eq ∨ op = .ne) := by
  constructor
  · rintro (⟨hk, hl⟩ | ⟨hl⟩ | ⟨hl, ho⟩)
    · refine ⟨.inl ⟨hk, hl⟩, ?_⟩
      rintro ⟨rfl, -⟩
      exact hk.elim
    · exact ⟨.inr hl.symm, fun hb => nomatch hb.1⟩
    · exact ⟨.inr hl.symm, fun _ => ho⟩
  · rintro ⟨⟨hk, hl⟩ | hk, ho⟩
    · exact .numbers hk hl
    · cases kind with
      | int | float => exact .numbers trivial (hk ▸ trivial)
      | boolean => exact .booleans hk.symm (ho ⟨rfl, hk.symm⟩)
      | string => exact .strings hk.symm

/-- **Nothing is wrong** with the tests that suit the type. -/
theorem objection?_eq_none_iff : test.objection? name kind = none ↔ test.Suits kind := by
  cases test with
  | compare op literal =>
      rw [suits_compare_iff, ← Kind.comparesWith_iff, ← CompareOp.isEquality_iff, objection?]
      split
      next ho =>
        obtain ⟨hk, hl, he⟩ := ho
        simp [hk, hl, he]
      next ho =>
        have he : kind = .boolean ∧ literal.kind = .boolean → op.isEquality = true :=
          fun hb => Bool.not_eq_false _ ▸ fun he => ho ⟨hb.1, hb.2, he⟩
        rw [and_iff_left he]
        split <;> simp [*]
  | isTrue =>
      rw [objection?]
      split
      next hk =>
        subst hk
        simp [Suits.isTrue]
      next hk =>
        refine iff_of_false (Option.some_ne_none _) ?_
        rintro ⟨⟩
        exact hk rfl
  | isNull => exact iff_of_true rfl (.isNull kind)
  | isNotNull => exact iff_of_true rfl (.isNotNull kind)

/-- **What is wrong** with the others. -/
theorem objection?_eq_some_iff :
    test.objection? name kind = some error ↔ test.Misfits name kind error := by
  constructor
  · intro h
    cases test with
    | compare op literal =>
        rw [objection?] at h
        split at h
        next ho =>
          obtain ⟨rfl, hl, he⟩ := ho
          obtain rfl := Option.some.inj h
          refine .unordered hl ?_
          rw [← CompareOp.isEquality_iff, he]
          exact Bool.false_ne_true
        next =>
          split at h
          next => cases h
          next hc =>
            obtain rfl := Option.some.inj h
            rw [Kind.comparesWith_iff, not_or] at hc
            exact .unlike hc.1 hc.2
    | isTrue =>
        rw [objection?] at h
        split at h
        next => cases h
        next hk =>
          obtain rfl := Option.some.inj h
          exact .notBoolean hk
    | isNull | isNotNull => cases h
  · rintro (⟨hn, hk⟩ | ⟨hl, ho⟩ | ⟨hk⟩)
    · have hordering : ∀ {op : CompareOp} {literal : Literal}, kind ≠ literal.kind →
          ¬ (kind = .boolean ∧ literal.kind = .boolean ∧ op.isEquality = false) :=
        fun hk hb => hk (hb.1.trans hb.2.1.symm)
      rw [objection?, if_neg (hordering hk), if_neg]
      rw [Kind.comparesWith_iff, not_or]
      exact ⟨hn, hk⟩
    · rw [← CompareOp.isEquality_iff, Bool.not_eq_true] at ho
      rw [objection?, if_pos ⟨rfl, hl, ho⟩]
      rfl
    · rw [objection?, if_neg hk]
      rfl

end Objections

end Test

/-! ### Well-typed leaves -/

/-- **The leaf is well typed**: its column is there, and of a type that the test suits. -/
def WellTyped (schema : List (String × Kind)) (leaf : String × Test) : Prop :=
  ∃ kind, (leaf.1, kind) ∈ schema ∧ leaf.2.Suits kind

/-- **The error of an ill-typed leaf**. -/
inductive Refused (schema : List (String × Kind)) (leaf : String × Test) : DataError → Prop where
  | unknown (h : ∀ kind, (leaf.1, kind) ∉ schema) : Refused schema leaf (.unknownColumn leaf.1)
  | misfit {kind : Kind} {error : DataError} (hk : (leaf.1, kind) ∈ schema)
      (h : leaf.2.Misfits leaf.1 kind error) : Refused schema leaf error

section Congruence

variable {schema other : List (String × Kind)} {leaf : String × Test} {error : DataError}

theorem WellTyped.congr (h : ∀ entry, entry ∈ other ↔ entry ∈ schema) :
    WellTyped other leaf ↔ WellTyped schema leaf := by
  simp only [WellTyped, h]

theorem Refused.congr (h : ∀ entry, entry ∈ other ↔ entry ∈ schema) :
    Refused other leaf error ↔ Refused schema leaf error := by
  have hone : ∀ {left right : List (String × Kind)}, (∀ entry, entry ∈ left ↔ entry ∈ right) →
      Refused left leaf error → Refused right leaf error := by
    rintro left right hmem (hn | ⟨hk, hm⟩)
    · exact .unknown fun kind hk => hn kind ((hmem _).mpr hk)
    · exact .misfit ((hmem _).mp hk) hm
  exact ⟨hone h, hone fun entry => (h entry).symm⟩

end Congruence

namespace Table

/-- What is wrong with a leaf over a table. -/
def objection? (table : Table) (leaf : String × Test) : Option DataError :=
  match table.get? leaf.1 with
  | none => some (.unknownColumn leaf.1)
  | some column => leaf.2.objection? leaf.1 column.kind

section Leaves

variable {table : Table} {leaf : String × Test} {error : DataError}

theorem WellFormed.mem_schema (h : table.WellFormed) {name : String} {kind : Kind} :
    (name, kind) ∈ table.schema ↔ ∃ column, table.get? name = some column ∧ column.kind = kind := by
  rw [schema, List.mem_map]
  constructor
  · rintro ⟨⟨entry, column⟩, hm, he⟩
    obtain ⟨rfl, rfl⟩ := Prod.mk.inj he
    exact ⟨column, h.get?_eq_some_iff.mpr hm, rfl⟩
  · rintro ⟨column, hg, rfl⟩
    exact ⟨(name, column), h.get?_eq_some_iff.mp hg, rfl⟩

theorem WellFormed.notMem_schema (h : table.WellFormed) {name : String}
    (hg : table.get? name = none) (kind : Kind) : (name, kind) ∉ table.schema := by
  rw [h.mem_schema, hg]
  rintro ⟨_, ⟨⟩, -⟩

theorem WellFormed.mem_schema_iff_of_get? (h : table.WellFormed) {name : String} {column : Column}
    (hg : table.get? name = some column) {kind : Kind} :
    (name, kind) ∈ table.schema ↔ kind = column.kind := by
  rw [h.mem_schema, hg]
  simp [eq_comm]

theorem WellFormed.objection?_eq_none_iff (h : table.WellFormed) :
    table.objection? leaf = none ↔ WellTyped table.schema leaf := by
  rw [objection?, WellTyped]
  cases hg : table.get? leaf.1 with
  | none => simp [h.notMem_schema hg]
  | some column => simp [h.mem_schema_iff_of_get? hg, Test.objection?_eq_none_iff]

theorem WellFormed.objection?_eq_some_iff (h : table.WellFormed) :
    table.objection? leaf = some error ↔ Refused table.schema leaf error := by
  rw [objection?]
  cases hg : table.get? leaf.1 with
  | none =>
      constructor
      · rintro ⟨⟩
        exact .unknown (h.notMem_schema hg)
      · rintro (_ | ⟨hk, -⟩)
        · rfl
        · exact absurd hk (h.notMem_schema hg _)
  | some column =>
      dsimp only
      rw [Test.objection?_eq_some_iff]
      constructor
      · exact .misfit ((h.mem_schema_iff_of_get? hg).mpr rfl)
      · rintro (hn | ⟨hk, hm⟩)
        · exact absurd ((h.mem_schema_iff_of_get? hg).mpr rfl) (hn _)
        · exact (h.mem_schema_iff_of_get? hg).mp hk ▸ hm

end Leaves

/-! ### Evaluation -/

/-- The computation gives a value if there is no error, and else ends in the error. -/
inductive Settles {α : Type} : Option DataError → Outcome DataError α → Prop where
  | ok (value : α) : Settles none (.ok value)
  | error (error : DataError) : Settles (some error) (.error (.error error))

namespace Settles

variable {α β : Type} {found later : Option DataError} {x : Outcome DataError α}

theorem bind {f : α → Outcome DataError β} (h : Settles found x)
    (hf : ∀ value, x = .ok value → Settles later (f value)) :
    Settles (found.or later) (x >>= f) := by
  cases h with
  | ok value => exact hf value rfl
  | error error => exact .error error

/-- What is done without fail does not change the end. -/
theorem followed {f : α → Outcome DataError β} (h : Settles found x)
    (hf : ∀ value, x = .ok value → ∃ result, f value = .ok result) : Settles found (x >>= f) := by
  have hnone : ∀ value, x = .ok value → Settles none (f value) := fun value hx => by
    obtain ⟨result, hr⟩ := hf value hx
    rw [hr]
    exact .ok result
  have hbind := h.bind hnone
  rwa [Option.or_none] at hbind

theorem map (h : Settles found x) (f : α → β) : Settles found (x.map f) := by
  cases h with
  | ok value => exact .ok (f value)
  | error error => exact .error error

theorem exists_ok_iff (h : Settles found x) : (∃ value, x = .ok value) ↔ found = none := by
  cases h with
  | ok value => exact iff_of_true ⟨value, rfl⟩ rfl
  | error error => exact iff_of_false (fun ⟨_, hx⟩ => nomatch hx) (Option.some_ne_none error)

theorem eq_error_iff (h : Settles found x) {abort : Abort DataError} :
    x = .error abort ↔ ∃ error, found = some error ∧ abort = .error error := by
  cases h with
  | ok value => exact iff_of_false (fun hx => nomatch hx) (fun ⟨_, hf, _⟩ => nomatch hf)
  | error error => simp [eq_comm]

end Settles

section Evaluation

variable {table : Table}

theorem WellFormed.settles_leaf (h : table.WellFormed) (name : String) (test : Test) :
    Settles (table.objection? (name, test))
      (Outcome.ofExcept (table.column name) >>= fun column => test.bits name column) := by
  rw [objection?, column]
  cases hg : table.get? name with
  | none => exact .error _
  | some column =>
      show Settles (test.objection? name column.kind) (test.bits name column)
      cases ho : test.objection? name column.kind with
      | some error =>
          rw [Test.bits_of_objection ho]
          exact .error error
      | none =>
          obtain ⟨bits, hbits⟩ := Test.exists_bits (h.wellFormed_of_get? hg).1 ho
          rw [hbits]
          exact .ok bits

/-- **Evaluation** ends as the search for an ill-typed leaf, from left to right. -/
theorem WellFormed.settles_evaluate (h : table.WellFormed) (predicate : Predicate) :
    Settles (predicate.leaves.findSome? table.objection?)
      (predicate.evaluate (fun name => Outcome.ofExcept (table.column name)) id) := by
  induction predicate with
  | leaf name test =>
      rw [Predicate.leaves, List.findSome?_singleton]
      exact h.settles_leaf name test
  | and left right ihl ihr =>
      rw [Predicate.leaves, List.findSome?_append]
      refine ihl.bind fun a ha => ihr.followed fun b hb => ?_
      obtain ⟨hawf, hal, -⟩ := h.evaluate_eq_ok ha
      obtain ⟨hbwf, hbl, -⟩ := h.evaluate_eq_ok hb
      obtain ⟨bits, hbits, -⟩ := Bits.and_eq_ok hawf hbwf (hal.trans hbl.symm)
      exact ⟨bits, Outcome.ofFaulty_eq_ok.mpr hbits⟩
  | or left right ihl ihr =>
      rw [Predicate.leaves, List.findSome?_append]
      refine ihl.bind fun a ha => ihr.followed fun b hb => ?_
      obtain ⟨hawf, hal, -⟩ := h.evaluate_eq_ok ha
      obtain ⟨hbwf, hbl, -⟩ := h.evaluate_eq_ok hb
      obtain ⟨bits, hbits, -⟩ := Bits.or_eq_ok hawf hbwf (hal.trans hbl.symm)
      exact ⟨bits, Outcome.ofFaulty_eq_ok.mpr hbits⟩
  | not inner ih => exact ih.followed fun bits _ => ⟨bits.not, rfl⟩

theorem WellFormed.settles_select (h : table.WellFormed) (predicate : Predicate) :
    Settles (predicate.leaves.findSome? table.objection?) (table.select predicate) :=
  (h.settles_evaluate predicate).map Mask.mk

/-! ### Acceptance -/

/-- A predicate is accepted when its leaves are well typed. -/
theorem WellFormed.exists_select_iff (h : table.WellFormed) (predicate : Predicate) :
    (∃ mask, table.select predicate = .ok mask) ↔
      ∀ leaf ∈ predicate.leaves, WellTyped table.schema leaf := by
  simp only [(h.settles_select predicate).exists_ok_iff, List.findSome?_eq_none_iff,
    h.objection?_eq_none_iff]

/-- Otherwise it is refused with the error of the first that is not. -/
theorem WellFormed.select_eq_error_iff (h : table.WellFormed) (predicate : Predicate)
    {abort : Abort DataError} :
    table.select predicate = .error abort ↔ ∃ before leaf after error,
      predicate.leaves = before ++ leaf :: after ∧
        (∀ earlier ∈ before, WellTyped table.schema earlier) ∧
          Refused table.schema leaf error ∧ abort = .error error := by
  simp only [(h.settles_select predicate).eq_error_iff, List.findSome?_eq_some_iff,
    h.objection?_eq_none_iff, h.objection?_eq_some_iff]
  constructor
  · rintro ⟨error, ⟨before, leaf, after, hl, hr, hb⟩, rfl⟩
    exact ⟨before, leaf, after, error, hl, hb, hr, rfl⟩
  · rintro ⟨before, leaf, after, error, hl, hb, hr, rfl⟩
    exact ⟨error, ⟨before, leaf, after, hl, hr, hb⟩, rfl⟩

end Evaluation

/-- **The schema decides.**  A predicate is accepted exactly when every leaf is well typed, and
otherwise ends in the error of the first leaf, from left to right, that is not.  So a table with the
same names and types accepts a predicate with the same leaves, however these are combined, or
refuses it with the same error. -/
theorem Built.select_by_schema {table : Table} (ht : table.Built) (predicate : Predicate) :
    ((∃ mask, table.select predicate = .ok mask) ↔
        ∀ leaf ∈ predicate.leaves, WellTyped table.schema leaf) ∧
      (∀ abort, table.select predicate = .error abort ↔ ∃ before leaf after error,
        predicate.leaves = before ++ leaf :: after ∧
          (∀ earlier ∈ before, WellTyped table.schema earlier) ∧
            Refused table.schema leaf error ∧ abort = .error error) ∧
      ∀ other : Table, other.Built → (∀ entry, entry ∈ other.schema ↔ entry ∈ table.schema) →
        ∀ rephrased : Predicate, rephrased.leaves = predicate.leaves →
          ((∃ mask, other.select rephrased = .ok mask) ↔
            ∃ mask, table.select predicate = .ok mask) ∧
          ∀ abort, other.select rephrased = .error abort ↔
            table.select predicate = .error abort := by
  have h := ht.wellFormed
  refine ⟨h.exists_select_iff predicate, fun abort => h.select_eq_error_iff predicate, ?_⟩
  intro other ho hschema rephrased hleaves
  have h' := ho.wellFormed
  refine ⟨?_, fun abort => ?_⟩
  · rw [h'.exists_select_iff, h.exists_select_iff, hleaves]
    simp only [WellTyped.congr hschema]
  · rw [h'.select_eq_error_iff, h.select_eq_error_iff, hleaves]
    simp only [WellTyped.congr hschema, Refused.congr hschema]

/-- A table without rows, with columns of the same names and types as `mixed`, the other way
round. -/
def hollow : Table where
  columns := [("x", ⟨.float, #[], none⟩), ("n", ⟨.int, #[], none⟩)]

theorem built_hollow : hollow.Built := by
  refine built_iff.mpr ⟨fun entry he => ?_, by decide, by decide⟩
  simp only [hollow, List.mem_cons, List.not_mem_nil, or_false] at he
  rcases he with rfl | rfl
  · exact Column.wellFormed_of_validity_none rfl
  · exact Column.wellFormed_of_validity_none rfl

/-- Something is wrong with the second leaf and with the third. -/
def disputed : Predicate :=
  .or (.leaf "x" .isNull) (.and (.leaf "n" (.compare .eq (.string ""))) (.leaf "y" .isTrue))

/-- The same leaves, combined in another way. -/
def rearranged : Predicate :=
  .and (.and (.leaf "x" .isNull) (.not (.leaf "n" (.compare .eq (.string ""))))) (.leaf "y" .isTrue)

/-- The numbers are compared with a text, though there are none; that a column is missing is not
complained of before. -/
theorem select_hollow :
    hollow.Built ∧ hollow.select disputed =
        .error (.error (.typeMismatch "comparison on column n" "int" "string")) ∧
      mixed.select rearranged =
        .error (.error (.typeMismatch "comparison on column n" "int" "string")) := by
  obtain ⟨-, hrefused, hsame⟩ := built_hollow.select_by_schema disputed
  have hfirst : WellTyped hollow.schema ("x", .isNull) := ⟨.float, by decide, .isNull .float⟩
  have hsecond : Refused hollow.schema ("n", .compare .eq (.string ""))
      (.typeMismatch "comparison on column n" "int" "string") :=
    .misfit (show ("n", Kind.int) ∈ hollow.schema by decide)
      (.unlike (fun hn => hn.2) (fun hk => nomatch hk))
  have hhollow : hollow.select disputed =
      .error (.error (.typeMismatch "comparison on column n" "int" "string")) :=
    (hrefused _).mpr ⟨[("x", .isNull)], ("n", .compare .eq (.string "")), [("y", .isTrue)], _, rfl,
      fun earlier he => List.mem_singleton.mp he ▸ hfirst, hsecond, rfl⟩
  have hschema : ∀ entry, entry ∈ mixed.schema ↔ entry ∈ hollow.schema := fun entry => by
    simp [schema, mixed, hollow, Column.ofFloats, or_comm]
  have hmixed := (hsame mixed built_mixed hschema rearranged rfl).2
  exact ⟨built_hollow, hhollow, (hmixed _).mpr hhollow⟩

end Table

end RowSieve

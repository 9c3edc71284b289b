import RowSieve.Proofs.Binary64.Rounding
import RowSieve.Proofs.Column.Equality
import RowSieve.Proofs.Column.Inference

/-!
# From values to columns and back

Building a column from values and reading them are inverse to each other.  A given type takes the
values that fit and widens integers to floating-point numbers; the type that the values have takes
them as they are.  What does not fit is told with the first value that does not.

* `Column.exists_ofScalars_iff`, `Column.exists_ofScalars_eq_error`: columns of a given type.
* `Column.exists_infer_iff`, `Column.exists_infer_eq_error`: columns of the type that the values
  have.
* `Column.WellFormed.rebuilt`, `Column.WellFormed.reinferred`: a column made from its own values is
  an equal one.
* `Column.round_trip`: all this for the columns that can be built.
-/

namespace RowSieve.Column

section RoundTrip

variable {kind : Kind} {values : List Scalar} {column : Column}

/-! ### Values of a given type -/

/-- **The first value that does not fit** has the type `actual`. -/
def FirstMisfit (kind : Kind) (values : List Scalar) (actual : Kind) : Prop :=
  ∃ before value after, values = before ++ value :: after ∧
    (∀ earlier ∈ before, earlier.Fits kind) ∧ ¬ value.Fits kind ∧ value.kind? = some actual

/-- A list of values fits, or there is a first one that does not. -/
theorem exists_firstMisfit (h : ¬ ∀ value ∈ values, value.Fits kind) :
    ∃ actual, FirstMisfit kind values actual := by
  induction values with
  | nil => exact absurd (by simp) h
  | cons value rest ih =>
      by_cases hvalue : value.Fits kind
      · have hrest : ¬ ∀ other ∈ rest, other.Fits kind :=
          fun hall => h (List.forall_mem_cons.mpr ⟨hvalue, hall⟩)
        obtain ⟨actual, before, misfit, after, rfl, hbefore, hmisfit⟩ := ih hrest
        exact ⟨actual, value :: before, misfit, after, rfl,
          List.forall_mem_cons.mpr ⟨hvalue, hbefore⟩, hmisfit⟩
      · have hkind := hvalue
        rw [Scalar.Fits] at hkind
        push Not at hkind
        obtain ⟨actual, hactual, -⟩ := hkind
        exact ⟨actual, [], value, rest, rfl, by simp, hvalue, hactual⟩

/-- **The first value that does not fit** is refused. -/
theorem FirstMisfit.ofScalars_eq_error {actual : Kind} (h : FirstMisfit kind values actual) :
    ofScalars kind values = .error (.typeMismatch "column values" kind.name actual.name) := by
  obtain ⟨before, value, after, rfl, hbefore, hvalue, hactual⟩ := h
  have hslots : slotsOf kind (before ++ value :: after) =
      .error (.typeMismatch "column values" kind.name actual.name) := by
    refine Outcome.mapM_eq_error_iff.mpr ⟨before, value, after, rfl, fun earlier he => ?_, ?_⟩
    · obtain ⟨slot, hslot⟩ := exists_slotOf?_iff.mpr (hbefore earlier he)
      exact ⟨slot, by rw [hslot]⟩
    · have hnone : slotOf? kind value = none := Option.eq_none_iff_forall_ne_some.mpr fun slot hs =>
        hvalue (exists_slotOf?_iff.mp ⟨slot, hs⟩)
      rw [hnone, Scalar.kindName, hactual]
  rw [ofScalars, hslots]
  rfl

/-- Values that do not all fit are refused with the first that does not. -/
theorem exists_ofScalars_eq_error (h : ¬ ∀ value ∈ values, value.Fits kind) :
    ∃ actual, FirstMisfit kind values actual ∧
      ofScalars kind values = .error (.typeMismatch "column values" kind.name actual.name) := by
  obtain ⟨actual, hmisfit⟩ := exists_firstMisfit h
  exact ⟨actual, hmisfit, hmisfit.ofScalars_eq_error⟩

/-- **Columns of a given type** are made of just the values that fit. -/
theorem exists_ofScalars_iff :
    (∃ column, ofScalars kind values = .ok column) ↔ ∀ value ∈ values, value.Fits kind := by
  refine ⟨?_, exists_ofScalars⟩
  rintro ⟨column, hc⟩
  by_contra h
  obtain ⟨actual, -, hactual⟩ := exists_ofScalars_eq_error h
  cases hc.symm.trans hactual

/-! ### The type that values have -/

/-- **A value disagrees** in a row: those before it have the type `known`, and it has the type
`actual`. -/
structure DisagreesAt (values : List Scalar) (row : Nat) (known actual : Kind) : Prop where
  agree : ∀ value ∈ values.take row, ∀ other, value.kind? = some other → other = known
  found : ∃ value, values[row]? = some value ∧ value.kind? = some actual
  disagrees : known ≠ actual

theorem DisagreesAt.cons {value : Scalar} {row : Nat} {known actual : Kind}
    (h : DisagreesAt values row known actual)
    (hv : ∀ other, value.kind? = some other → other = known) :
    DisagreesAt (value :: values) (row + 1) known actual where
  agree := List.forall_mem_cons.mpr ⟨hv, h.agree⟩
  found := h.found
  disagrees := h.disagrees

/-- **The first value that disagrees** with the first value of all, which has the type `expected`. -/
structure FirstDisagreement (values : List Scalar) (row : Nat) (expected actual : Kind) : Prop
    extends DisagreesAt values row expected actual where
  first : values.findSome? Scalar.kind? = some expected

/-- Types that disagree are told with the first row in which they do. -/
theorem inferKind_eq_error {expected : Option Kind} {start : Nat} {cause : DataError}
    (h : inferKind expected start values = .error cause) :
    ∃ row known actual, expected.or (values.findSome? Scalar.kind?) = some known ∧
      DisagreesAt values row known actual ∧ cause =
        .typeMismatch s!"inferred column value at row {start + row}" known.name actual.name := by
  fun_induction inferKind expected start values with
  | case1 => cases h
  | case2 expected start value rest hnull ih =>
      obtain ⟨row, known, actual, hknown, hrow, rfl⟩ := ih h
      refine ⟨row + 1, known, actual, ?_, hrow.cons (by simp [hnull]), ?_⟩
      · rwa [List.findSome?_cons, hnull]
      · rw [Nat.add_right_comm, Nat.add_assoc]
  | case3 start value rest first hfirst ih =>
      obtain ⟨row, known, actual, hknown, hrow, rfl⟩ := ih h
      obtain rfl := Option.some.inj hknown
      refine ⟨row + 1, first, actual, ?_, hrow.cons (by simp [hfirst]), ?_⟩
      · rw [List.findSome?_cons, hfirst]
        rfl
      · rw [Nat.add_right_comm, Nat.add_assoc]
  | case4 start value rest known hknown ih =>
      obtain ⟨row, _, actual, hsame, hrow, rfl⟩ := ih h
      obtain rfl := Option.some.inj hsame
      refine ⟨row + 1, known, actual, rfl, hrow.cons (by simp [hknown]), ?_⟩
      rw [Nat.add_right_comm, Nat.add_assoc]
  | case5 start value rest actual known hactual hne =>
      exact ⟨0, known, actual, rfl, ⟨by simp, ⟨value, rfl, hactual⟩, hne⟩,
        (Except.error.inj h).symm⟩

/-- Values that do not all have one type are refused with the first that disagrees. -/
theorem exists_infer_eq_error
    (h : ¬ ∃ kind, ∀ value ∈ values, ∀ actual, value.kind? = some actual → actual = kind) :
    ∃ row expected actual, FirstDisagreement values row expected actual ∧
      infer values = .error
        (.typeMismatch s!"inferred column value at row {row}" expected.name actual.name) := by
  cases hk : inferKind none 0 values with
  | ok found =>
      refine absurd ⟨found.getD .float, fun value hv actual ha => ?_⟩ h
      rw [(inferKind_eq_ok hk).2 value hv actual ha]
      rfl
  | error cause =>
      obtain ⟨row, expected, actual, hfirst, hrow, rfl⟩ := inferKind_eq_error hk
      refine ⟨row, expected, actual, ⟨hrow, hfirst⟩, ?_⟩
      rw [infer, hk, Nat.zero_add]
      rfl

/-- The values of a column of the type that they have do have its type. -/
theorem kind?_of_infer (h : infer values = .ok column) {value : Scalar} (hm : value ∈ values)
    {actual : Kind} (ha : value.kind? = some actual) : actual = column.kind := by
  rw [← values_of_infer h] at hm
  exact (wellFormed_of_infer h).kind?_of_mem hm ha

/-- **Columns of the type that the values have** are made of just the values of one type. -/
theorem exists_infer_iff :
    (∃ column, infer values = .ok column) ↔
      ∃ kind, ∀ value ∈ values, ∀ actual, value.kind? = some actual → actual = kind := by
  refine ⟨?_, fun ⟨kind, h⟩ => exists_infer h⟩
  rintro ⟨column, hc⟩
  exact ⟨column.kind, fun value hm actual => kind?_of_infer hc hm⟩

/-! ### Columns made again -/

/-- **A column of its own type, made from its values,** is an equal one. -/
theorem WellFormed.rebuilt (h : column.WellFormed) :
    ∃ again, ofScalars column.kind column.values = .ok again ∧ (again == column) = true := by
  have hfits : ∀ value ∈ column.values, value.Fits column.kind :=
    fun value hm => Scalar.fits_of_kind fun actual => h.kind?_of_mem hm
  obtain ⟨again, ha⟩ := exists_ofScalars hfits
  refine ⟨again, ha, beq_of_values (kind_of_ofScalars ha) ?_⟩
  rw [values_of_ofScalars ha]
  refine (List.map_congr_left fun value hm => ?_).trans (List.map_id column.values)
  exact widened_of_kind fun actual hk => (h.kind?_of_mem hm hk).symm

/-- **A column of the type that its values have,** made from them, is an equal one.  Of nulls alone
only a column of floating-point numbers can be made. -/
theorem WellFormed.reinferred (h : column.WellFormed)
    (hkind : column.kind = .float ∨ ∃ value ∈ column.values, value ≠ .null) :
    ∃ again, infer column.values = .ok again ∧ (again == column) = true := by
  have hone : ∀ value ∈ column.values, ∀ actual, value.kind? = some actual → actual = column.kind :=
    fun value hm actual => h.kind?_of_mem hm
  obtain ⟨again, ha⟩ := exists_infer hone
  refine ⟨again, ha, beq_of_values ?_ (values_of_infer ha)⟩
  rw [kind_of_infer ha]
  by_cases hvalue : ∃ value ∈ column.values, value ≠ .null
  · obtain ⟨value, hm, hne⟩ := hvalue
    obtain ⟨kind, hk⟩ := exists_kind? hne
    rw [← h.kind?_of_mem hm hk]
    exact (eq_firstKind hone hm hk).symm
  · push Not at hvalue
    rw [firstKind_of_nulls hvalue, hkind.resolve_right (by simpa using hvalue)]

/-- The number that an integer widens to is the nearest one. -/
theorem exists_nearest_widened (a : Int64) :
    ∃ x : Binary64, Scalar.widened .float (.int a) = .float x ∧ x.IsNearest a.toInt :=
  ⟨.ofInt64 a, rfl, Binary64.isNearest_ofInt64 a⟩

end RoundTrip

/-- **There and back.**  A column of a given type can be made of just the values that fit; it holds
them, integers widened to the nearest number, and otherwise the first value that does not fit is
refused.  A column of the type that the values have can be made of just the values of one type; it
holds them as they are and has this type, that of floating-point numbers if all are null, and
otherwise the first value that disagrees is refused.  Any column that can be built is equal to the
one made from its type and values, and to the one made from its values alone, unless it is all nulls
and of another type than floating-point numbers. -/
theorem round_trip {column : Column} (h : column.Built) :
    (∀ kind values,
      ((∃ made, ofScalars kind values = .ok made) ↔ ∀ value ∈ values, value.Fits kind) ∧
        (∀ made, ofScalars kind values = .ok made →
          made.kind = kind ∧ made.values = values.map (Scalar.widened kind)) ∧
        ((¬ ∀ value ∈ values, value.Fits kind) → ∃ actual, FirstMisfit kind values actual ∧
          ofScalars kind values = .error (.typeMismatch "column values" kind.name actual.name))) ∧
      (∀ a : Int64, ∃ x : Binary64,
        Scalar.widened .float (.int a) = .float x ∧ x.IsNearest a.toInt) ∧
      (∀ values,
        ((∃ made, infer values = .ok made) ↔
          ∃ kind, ∀ value ∈ values, ∀ actual, value.kind? = some actual → actual = kind) ∧
        (∀ made, infer values = .ok made → made.values = values ∧
          (∀ value ∈ values, ∀ actual, value.kind? = some actual → actual = made.kind) ∧
          ((∀ value ∈ values, value = .null) → made.kind = .float)) ∧
        ((¬ ∃ kind, ∀ value ∈ values, ∀ actual, value.kind? = some actual → actual = kind) →
          ∃ row expected actual, FirstDisagreement values row expected actual ∧
            infer values = .error
              (.typeMismatch s!"inferred column value at row {row}" expected.name actual.name))) ∧
      (∃ again, ofScalars column.kind column.values = .ok again ∧ (again == column) = true) ∧
      ((column.kind = .float ∨ ∃ value ∈ column.values, value ≠ .null) →
        ∃ again, infer column.values = .ok again ∧ (again == column) = true) := by
  refine ⟨fun kind values => ⟨exists_ofScalars_iff,
      fun made hm => ⟨kind_of_ofScalars hm, values_of_ofScalars hm⟩, exists_ofScalars_eq_error⟩,
    exists_nearest_widened, fun values => ⟨exists_infer_iff, fun made hm => ?_,
      exists_infer_eq_error⟩, h.wellFormed.rebuilt, h.wellFormed.reinferred⟩
  refine ⟨values_of_infer hm, fun value hv actual => kind?_of_infer hm hv, fun hnull => ?_⟩
  rw [kind_of_infer hm, firstKind_of_nulls hnull]

/-- A number with a null before it is widened, and a text after it is refused. -/
theorem round_trip_gapped :
    gapped.Built ∧ (∃ value ∈ gapped.values, value ≠ .null) ∧
      (∃ again, infer gapped.values = .ok again ∧ (again == gapped) = true) ∧
      (∃ made, ofScalars .float [.null, .int 7] = .ok made) ∧
      (∃ actual, FirstMisfit .float [.null, .int 7, .string "7"] actual) ∧
      ∃ row expected actual, FirstDisagreement [.null, .int 7, .string "7"] row expected actual := by
  have hvalue : ∃ value ∈ gapped.values, value ≠ .null :=
    ⟨.int 1, List.mem_of_getElem? (i := 0) rfl, nofun⟩
  obtain ⟨hdeclared, -, hinferred, -, hagain⟩ := round_trip built_gapped
  have hfit : ∀ value ∈ [Scalar.null, .int 7], value.Fits .float := by
    simp [Scalar.Fits, Scalar.kind?]
  have hmisfit : ¬ ∀ value ∈ [Scalar.null, .int 7, .string "7"], value.Fits .float := by
    simp [Scalar.Fits, Scalar.kind?]
  have hmixed : ¬ ∃ kind, ∀ value ∈ [Scalar.null, .int 7, .string "7"], ∀ actual,
      value.kind? = some actual → actual = kind := by
    simp [Scalar.kind?]
  obtain ⟨actual, hactual, -⟩ := (hdeclared .float _).2.2 hmisfit
  obtain ⟨row, expected, other, hfirst, -⟩ := (hinferred _).2.2 hmixed
  exact ⟨built_gapped, hvalue, hagain (.inr hvalue), (hdeclared .float _).1.mpr hfit,
    ⟨actual, hactual⟩, ⟨row, expected, other, hfirst⟩⟩

end RowSieve.Column

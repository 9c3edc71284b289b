import RowSieve.Proofs.Column.Inference
import RowSieve.Proofs.Column.SameCells
import RowSieve.Proofs.View.Depth
import RowSieve.Proofs.View.RowLocal

/-!
# Columns that fade

The type of a column found by a lifted function is that of its values.  When a view is narrowed and
only nulls are left of it, the column fades: it turns into one of floating-point numbers, which may
not suit a test or a function on texts that reads it.  Nothing else stands in the way of a second
predicate, apart from the limit of depth, which the columns that the first one has found no longer
help to meet.

* `View.Fades`: the columns that fade, and `View.ReliesOn`: the columns on whose type a predicate
  relies.
* `View.Invariant.exists_meaning_narrowed`: a column means something after narrowing, unless a
  function on texts that it needs reads a column that has faded.
* `View.Invariant.kind_of_filter`, `View.Fades.kind`: a column keeps its type unless it fades.
* `View.Reachable.filter_in_steps`: when a view can be narrowed by two predicates one after the
  other.
-/

namespace RowSieve

/-! ### Functions -/

namespace ColumnFunction

theorem Lifted.rowLocal {function : ColumnFunction} (h : function.Lifted) : function.RowLocal := by
  cases h with
  | elementwise f h => exact .elementwise f fun _ _ ho => h ▸ ho
  | text operation h => exact .text operation h

end ColumnFunction

namespace View

open Relation (ReflTransGen)

/-- Every function of the view is a lifted function on cells, or a function on texts. -/
def Lifted (view : View) : Prop :=
  ∀ name function, view.functions.get? name = some function → function.Lifted

theorem Lifted.rowLocal {view : View} (h : view.Lifted) : view.RowLocal :=
  fun name function hf => (h name function hf).rowLocal

/-- **The column fades** when the view is narrowed: a lifted function has found another type than
floating-point numbers for it, and its values are not among the rows that are left. -/
inductive Fades (view narrowed : View) (name : String) : Prop where
  | intro {declared : VirtualColumn} {f : List Scalar → Scalar} {column : Column}
      (hv : view.virtualColumn? name = some declared)
      (hf : view.functions.get? declared.function = some (.elementwise f))
      (hc : view.meaning name = .ok column) (hk : column.kind ≠ .float)
      (hn : ∀ place ∈ view.placesShown narrowed, column.cell place = .null)

/-- The first column is a function on texts, and the second is its source. -/
def ReadsText (view : View) (reader source : String) : Prop :=
  ∃ declared operation, view.virtualColumn? reader = some declared ∧
    view.functions.get? declared.function = some (TextFunction.call operation) ∧
      source ∈ declared.sources

/-- **The predicate relies on the type of the column**: a test of it does not suit floating-point
numbers, or a function on texts that is needed reads it. -/
inductive ReliesOn (view : View) (predicate : Predicate) (name : String) : Prop where
  | test {test : Test} (hl : (name, test) ∈ predicate.leaves) (hs : ¬ test.Suits .float)
  | text {leaf : String × Test} {reader : String} (hl : leaf ∈ predicate.leaves)
      (hn : ReflTransGen view.DirectSource leaf.1 reader) (hr : view.ReadsText reader name)

/-! ### Rows that are left -/

section Rows

variable {view narrowed : View} {first : Predicate}

/-- A narrowed view differs from the view in its mask alone. -/
theorem Invariant.shared_of_filter (h : view.Invariant)
    (hf : (view.filter first).outcome = .ok narrowed) :
    narrowed.virtualColumn? = view.virtualColumn? ∧ narrowed.functions = view.functions ∧
      narrowed.table = view.table ∧ narrowed.maxDepth = view.maxDepth := by
  obtain ⟨mask, rfl, -⟩ := h.narrowsTo_of_filter hf
  exact ⟨rfl, rfl, rfl, rfl⟩

/-- A virtual column is found by the same function after narrowing. -/
theorem Invariant.called_of_filter (h : view.Invariant)
    (hf : (view.filter first).outcome = .ok narrowed) {name : String} {declared : VirtualColumn}
    {function : ColumnFunction} {column' : Column} (hv : view.virtualColumn? name = some declared)
    (hfunction : view.functions.get? declared.function = some function)
    (hc' : narrowed.meaning name = .ok column') :
    ∃ arguments', declared.sources.mapM narrowed.meaning = .ok arguments' ∧
      function arguments' = .ok column' := by
  obtain ⟨hvirtual, hfunctions, -, -⟩ := h.shared_of_filter hf
  rw [(h.filter hf).meaning_of_virtual (hvirtual ▸ hv)] at hc'
  obtain ⟨function', arguments', hfunction', ha', ho', -⟩ := combined_eq_ok.mp hc'
  rw [hfunctions] at hfunction'
  obtain rfl := Option.some.inj (hfunction.symm.trans hfunction')
  exact ⟨arguments', ha', ho'⟩

/-- The rows that are left are those at the places shown, in the same order. -/
theorem Invariant.row_of_place (h : view.Invariant)
    (hf : (view.filter first).outcome = .ok narrowed) {index place : Nat}
    (hi : (view.placesShown narrowed)[index]? = some place) :
    ∃ row, narrowed.rows[index]? = some row ∧ view.rows[place]? = some row := by
  have hat := congrArg (·[index]?) (h.map_some_rows_filter hf)
  simp only [List.getElem?_map, hi, Option.map_some] at hat
  cases hr : narrowed.rows[index]? with
  | none =>
      rw [hr] at hat
      cases hat
  | some row =>
      rw [hr] at hat
      exact ⟨row, rfl, (Option.some.inj hat).symm⟩

theorem Invariant.visibleCount_of_filter (h : view.Invariant)
    (hf : (view.filter first).outcome = .ok narrowed) :
    narrowed.visibleCount = (view.placesShown narrowed).length := by
  rw [(h.filter hf).visibleCount_eq, ← List.length_map, h.map_some_rows_filter hf,
    List.length_map]

/-- The values that are left are those at the places shown. -/
theorem Invariant.mem_values_of_filter (h : view.Invariant) (hlocal : view.RowLocal)
    (hf : (view.filter first).outcome = .ok narrowed) {name : String} {column column' : Column}
    (hc : view.meaning name = .ok column) (hc' : narrowed.meaning name = .ok column')
    {value : Scalar} :
    value ∈ column'.values ↔ ∃ place ∈ view.placesShown narrowed, column.cell place = value := by
  rw [h.values_of_filter hlocal hf hc hc', mem_membersAt]
  refine exists_congr fun place => and_congr_right fun hp => ?_
  obtain ⟨index, hi⟩ := List.mem_iff_getElem?.mp hp
  obtain ⟨row, -, hr⟩ := h.row_of_place hf hi
  rw [Column.getElem?_values (h.lt_length_of_row hc hr), Option.some.injEq]

end Rows

/-! ### Types that are left -/

section Kinds

variable {view narrowed : View} {first : Predicate} {name : String} {column column' : Column}

/-- A lifted function that finds only nulls in the rows that are left gives a column of
floating-point numbers. -/
theorem Invariant.kind_of_nulls (h : view.Invariant) (hlocal : view.RowLocal)
    (hf : (view.filter first).outcome = .ok narrowed) (hc : view.meaning name = .ok column)
    (hc' : narrowed.meaning name = .ok column') {f : List Scalar → Scalar}
    {arguments : List Column} (ho : ColumnFunction.elementwise f arguments = .ok column')
    (hnull : ∀ place ∈ view.placesShown narrowed, column.cell place = .null) :
    column'.kind = .float := by
  rw [ColumnFunction.kind_of_elementwise ho]
  refine Column.firstKind_of_nulls fun value hvalue => ?_
  obtain ⟨place, hp, rfl⟩ := (h.mem_values_of_filter hlocal hf hc hc').mp hvalue
  exact hnull place hp

/-- A value that is left has the type of the column before and after. -/
theorem Invariant.kind_of_value (h : view.Invariant) (hlocal : view.RowLocal)
    (hf : (view.filter first).outcome = .ok narrowed) (hc : view.meaning name = .ok column)
    (hc' : narrowed.meaning name = .ok column') {place : Nat}
    (hp : place ∈ view.placesShown narrowed) (hvalue : column.cell place ≠ .null) :
    column'.kind = column.kind := by
  obtain ⟨kind, hkind⟩ := Column.exists_kind? hvalue
  obtain ⟨index, hi⟩ := List.mem_iff_getElem?.mp hp
  obtain ⟨row, -, hr⟩ := h.row_of_place hf hi
  have hmem : column.cell place ∈ column.values :=
    List.mem_of_getElem? (Column.getElem?_values (h.lt_length_of_row hc hr))
  have hmem' : column.cell place ∈ column'.values :=
    (h.mem_values_of_filter hlocal hf hc hc').mpr ⟨place, hp, rfl⟩
  rw [← (h.wellFormed_of_meaning hc).1.kind?_of_mem hmem hkind,
    ← ((h.filter hf).wellFormed_of_meaning hc').1.kind?_of_mem hmem' hkind]

/-- **A column that fades** turns into one of floating-point numbers. -/
theorem Fades.kind (hfades : view.Fades narrowed name) (h : view.Invariant) (hl : view.Lifted)
    (hf : (view.filter first).outcome = .ok narrowed) (hc' : narrowed.meaning name = .ok column') :
    column'.kind = .float := by
  obtain ⟨hv, hfunction, hc, -, hnull⟩ := hfades
  obtain ⟨arguments, -, ho⟩ := h.called_of_filter hf hv hfunction hc'
  exact h.kind_of_nulls hl.rowLocal hf hc hc' ho hnull

/-- **A column keeps its type**, unless it fades. -/
theorem Invariant.kind_of_filter (h : view.Invariant) (hl : view.Lifted)
    (hf : (view.filter first).outcome = .ok narrowed) (hc : view.meaning name = .ok column)
    (hc' : narrowed.meaning name = .ok column') (hfades : ¬ view.Fades narrowed name) :
    column'.kind = column.kind := by
  have hn := h.filter hf
  cases hv : view.virtualColumn? name with
  | none =>
      obtain ⟨hvirtual, -, htable, -⟩ := h.shared_of_filter hf
      rw [h.meaning_of_not_virtual hv] at hc
      rw [hn.meaning_of_not_virtual (hvirtual ▸ hv)] at hc'
      obtain ⟨stored, hg, rfl⟩ := h.gathered_eq_ok hc
      obtain ⟨stored', hg', rfl⟩ := hn.gathered_eq_ok hc'
      rw [htable] at hg'
      obtain rfl := Option.some.inj (hg.symm.trans hg')
      rfl
  | some declared =>
      have hcombined := hc
      rw [h.meaning_of_virtual hv] at hcombined
      obtain ⟨function, arguments, hfunction, ha, ho, -⟩ := combined_eq_ok.mp hcombined
      obtain ⟨arguments', ha', ho'⟩ := h.called_of_filter hf hv hfunction hc'
      cases hl _ _ hfunction with
      | text operation he =>
          subst he
          obtain ⟨_, _, -, rfl⟩ :=
            TextFunction.call_eq_ok ho (h.wellFormed_of_arguments ha)
          obtain ⟨_, _, -, rfl⟩ :=
            TextFunction.call_eq_ok ho' (hn.wellFormed_of_arguments ha')
          rfl
      | elementwise f he =>
          subst he
          by_cases hnull : ∀ place ∈ view.placesShown narrowed, column.cell place = .null
          · have hfloat : column.kind = .float := by
              by_contra hk
              exact hfades ⟨hv, hfunction, hc, hk, hnull⟩
            rw [hfloat, h.kind_of_nulls hl.rowLocal hf hc hc' ho' hnull]
          · obtain ⟨place, hp, hvalue⟩ :
                ∃ place ∈ view.placesShown narrowed, column.cell place ≠ .null := by
              simpa using hnull
            exact h.kind_of_value hl.rowLocal hf hc hc' hp hvalue

end Kinds

/-! ### Columns that still mean something -/

section Meanings

variable {view narrowed : View} {first : Predicate} {name : String} {column : Column}
  {declared : VirtualColumn} {arguments arguments' : List Column}

/-- A column that is needed means something, if what needs it does. -/
theorem Invariant.exists_meaning_of_needs (h : view.Invariant) (hc : view.meaning name = .ok column)
    {needed : String} (hn : ReflTransGen view.DirectSource name needed) :
    ∃ found, view.meaning needed = .ok found := by
  induction hn with
  | refl => exact ⟨column, hc⟩
  | tail _ hd ih =>
      obtain ⟨found, hfound⟩ := ih
      obtain ⟨declared, hv, hs⟩ := hd
      rw [h.meaning_of_virtual hv] at hfound
      obtain ⟨_, _, -, ha, -, -⟩ := combined_eq_ok.mp hfound
      exact Outcome.exists_of_mapM ha hs

/-- What a lifted function finds for a row that is left, it has found before. -/
theorem Invariant.result_of_filter (h : view.Invariant) (hl : view.Lifted)
    (hf : (view.filter first).outcome = .ok narrowed) {f : List Scalar → Scalar}
    (ha : declared.sources.mapM view.meaning = .ok arguments)
    (ho : ColumnFunction.elementwise f arguments = .ok column)
    (hlength : column.length = view.visibleCount)
    (ha' : declared.sources.mapM narrowed.meaning = .ok arguments') {index place : Nat}
    (hi : (view.placesShown narrowed)[index]? = some place) :
    f (Column.rowOf arguments' index) = column.cell place := by
  obtain ⟨row, hrow', hrow⟩ := h.row_of_place hf hi
  have hcells : Column.rowOf arguments' index = Column.rowOf arguments place :=
    Outcome.map_eq_of_mapM ha' ha fun source _ after before hafter hbefore =>
      h.cell_of_filter hl.rowLocal hf hrow hrow' hbefore hafter
  have hlt : place < column.length := by
    rw [hlength, h.visibleCount_eq]
    exact (List.getElem?_eq_some_iff.mp hrow).1
  rw [hcells, ColumnFunction.cell_of_elementwise ho hlt]

/-- **A lifted function** goes on to find a column: its results are among those before, which had
one type. -/
theorem Invariant.exists_elementwise_of_filter (h : view.Invariant) (hl : view.Lifted)
    (hf : (view.filter first).outcome = .ok narrowed) {f : List Scalar → Scalar}
    (ha : declared.sources.mapM view.meaning = .ok arguments)
    (ho : ColumnFunction.elementwise f arguments = .ok column)
    (hlength : column.length = view.visibleCount)
    (ha' : declared.sources.mapM narrowed.meaning = .ok arguments') :
    ∃ output, ColumnFunction.elementwise f arguments' = .ok output ∧
      output.length = narrowed.visibleCount := by
  have hn := h.filter hf
  cases arguments' with
  | nil =>
      -- then there were no arguments before, which is refused
      have hsources : declared.sources = [] :=
        List.length_eq_zero_iff.mp (Outcome.mapM_eq_ok.mp ha').length_eq
      rw [hsources] at ha
      cases ha
      cases ho
  | cons first' rest =>
      have hrows : first'.length = narrowed.visibleCount := by
        obtain ⟨source, -, hm⟩ := Outcome.exists_of_mem_mapM ha' List.mem_cons_self
        exact (hn.wellFormed_of_meaning hm).2
      have hkinds : ∀ row < first'.length, ∀ actual,
          (f (Column.rowOf (first' :: rest) row)).kind? = some actual → actual = column.kind := by
        intro row hr actual hactual
        rw [hrows, h.visibleCount_of_filter hf] at hr
        have hi := List.getElem?_eq_getElem hr
        rw [h.result_of_filter hl hf ha ho hlength ha' hi] at hactual
        obtain ⟨_, -, hrow⟩ := h.row_of_place hf hi
        have hlt : (view.placesShown narrowed)[row] < column.length := by
          rw [hlength, h.visibleCount_eq]
          exact (List.getElem?_eq_some_iff.mp hrow).1
        exact (Column.wellFormed_of_elementwise ho).kind?_of_mem
          (List.mem_of_getElem? (Column.getElem?_values hlt)) hactual
      rw [← hrows]
      exact ColumnFunction.exists_elementwise hkinds

/-- **A function on texts** goes on to find a column, unless its source has faded. -/
theorem Invariant.exists_call_of_filter (h : view.Invariant) (hl : view.Lifted)
    (hf : (view.filter first).outcome = .ok narrowed) {operation : TextFunction}
    (ha : declared.sources.mapM view.meaning = .ok arguments)
    (ho : operation.call arguments = .ok column)
    (ha' : declared.sources.mapM narrowed.meaning = .ok arguments')
    (hfades : ∀ source ∈ declared.sources, ¬ view.Fades narrowed source) :
    ∃ output, operation.call arguments' = .ok output ∧ output.length = narrowed.visibleCount := by
  have hn := h.filter hf
  obtain ⟨texts, validity, rfl, -⟩ := TextFunction.call_eq_ok ho (h.wellFormed_of_arguments ha)
  obtain ⟨source, hsources, hc⟩ := Outcome.exists_of_mapM_singleton ha
  rw [hsources, Outcome.mapM_eq_ok] at ha'
  obtain ⟨input, rest, hc', hrest, rfl⟩ := List.forall₂_cons_left_iff.mp ha'
  cases hrest
  have hkind := h.kind_of_filter hl hf hc hc' (hfades source (by simp [hsources]))
  obtain ⟨hwf, hlength⟩ := hn.wellFormed_of_meaning hc'
  obtain ⟨kind, slots, validity'⟩ := input
  obtain rfl : kind = .string := hkind
  refine ⟨_, operation.call_strings hwf, ?_⟩
  rw [← hlength, Column.length, Array.size_map]
  rfl

/-- **A column means something after narrowing**, if it did before, unless a function on texts that
it needs reads a column that has faded. -/
theorem Invariant.exists_meaning_narrowed (h : view.Invariant) (hl : view.Lifted)
    (hf : (view.filter first).outcome = .ok narrowed) (name : String) :
    ∀ column, view.meaning name = .ok column →
      (∀ reader source, ReflTransGen view.DirectSource name reader →
        view.ReadsText reader source → ¬ view.Fades narrowed source) →
      ∃ column', narrowed.meaning name = .ok column' := by
  have hn := h.filter hf
  obtain ⟨hvirtual, hfunctions, htable, -⟩ := h.shared_of_filter hf
  induction name using h.induction with
  | step name ih =>
      intro column hc hread
      cases hv : view.virtualColumn? name with
      | none =>
          rw [h.meaning_of_not_virtual hv] at hc
          obtain ⟨stored, hg, -⟩ := h.gathered_eq_ok hc
          rw [hn.meaning_of_not_virtual (hvirtual ▸ hv)]
          exact ⟨_, hn.gathered_eq (htable ▸ hg)⟩
      | some declared =>
          rw [h.meaning_of_virtual hv] at hc
          obtain ⟨function, arguments, hfunction, ha, ho, hlength⟩ := combined_eq_ok.mp hc
          obtain ⟨arguments', ha'⟩ : ∃ arguments',
              declared.sources.mapM narrowed.meaning = .ok arguments' := by
            refine Outcome.exists_mapM fun source hs => ?_
            obtain ⟨found, hfound⟩ := Outcome.exists_of_mapM ha hs
            have hd : view.DirectSource name source := ⟨declared, hv, hs⟩
            exact ih source hd found hfound fun reader other hneeds =>
              hread reader other (.head hd hneeds)
          obtain ⟨output, hout⟩ : ∃ output, function arguments' = .ok output ∧
              output.length = narrowed.visibleCount := by
            cases hl _ _ hfunction with
            | elementwise f he =>
                subst he
                exact h.exists_elementwise_of_filter hl hf ha ho hlength ha'
            | text operation he =>
                subst he
                exact h.exists_call_of_filter hl hf ha ho ha' fun source hs =>
                  hread name source .refl ⟨declared, operation, hv, hfunction, hs⟩
          rw [hn.meaning_of_virtual (hvirtual ▸ hv)]
          exact ⟨output, combined_eq_ok.mpr
            ⟨function, arguments', hfunctions ▸ hfunction, ha', hout⟩⟩

end Meanings

/-! ### One predicate after another -/

section Steps

variable {view narrowed : View} {first second : Predicate}

/-- Where a predicate is evaluated, it relies on no column that has faded. -/
theorem Invariant.not_reliesOn_of_filter (h : view.Invariant) (hl : view.Lifted)
    (hf : (view.filter first).outcome = .ok narrowed)
    (hpasses : ∀ leaf ∈ second.leaves, narrowed.Passes leaf) {name : String}
    (hfades : view.Fades narrowed name) : ¬ view.ReliesOn second name := by
  have hn := h.filter hf
  obtain ⟨hvirtual, -, -, -⟩ := h.shared_of_filter hf
  rintro (⟨hleaf, hsuits⟩ | ⟨hleaf, hneeds, declared, operation, hv, hfunction, hs⟩)
  · obtain ⟨column', hc', hsuits'⟩ := hpasses _ hleaf
    exact hsuits (hfades.kind h hl hf hc' ▸ hsuits')
  · obtain ⟨column', hc', -⟩ := hpasses _ hleaf
    rw [← directSource_congr hvirtual] at hneeds
    obtain ⟨found, hfound⟩ := hn.exists_meaning_of_needs hc' hneeds
    obtain ⟨arguments, ha, ho⟩ := h.called_of_filter hf hv hfunction hfound
    -- the argument is a column of texts, and none of floating-point numbers
    obtain ⟨texts, validity, rfl, -⟩ :=
      TextFunction.call_eq_ok ho (hn.wellFormed_of_arguments ha)
    obtain ⟨source, hsources, hinput⟩ := Outcome.exists_of_mapM_singleton ha
    rw [hsources, List.mem_singleton] at hs
    cases hfades.kind h hl hf (hs ▸ hinput)

/-- **Narrowing in steps.**  Where a view can be narrowed by two predicates together, it can be
narrowed by the first, and then by the second if this is within the limit of depth on its own and
relies on no column that fades. -/
theorem Reachable.filter_in_steps (h : view.Reachable) (hl : view.Lifted) {both : View}
    (hb : (view.filter (.and first second)).outcome = .ok both) :
    ∃ narrowed, (view.filter first).outcome = .ok narrowed ∧
      ((∃ twice, (narrowed.filter second).outcome = .ok twice) ↔
        (∃ alone, (view.filter second).outcome = .ok alone) ∧
          ∀ name, view.Fades narrowed name → ¬ view.ReliesOn second name) ∧
      ∀ cause, (view.filter second).outcome = .error cause →
        ∃ deepest, cause = .error (.definitionTooDeep deepest view.maxDepth) := by
  have hi := h.invariant
  obtain ⟨hpasses, hways⟩ := hi.exists_filter_iff.mp ⟨both, hb⟩
  rw [Predicate.leaves] at hpasses hways
  rw [List.map_append] at hways
  obtain ⟨hfirst, hsecond⟩ := List.forall_mem_append.mp hpasses
  obtain ⟨narrowed, hf⟩ := hi.exists_filter_iff.mpr
    ⟨hfirst, fun deepest way hw => hways deepest way (hw.append _)⟩
  have hn := hi.filter hf
  obtain ⟨hvirtual, -, -, hdepth⟩ := hi.shared_of_filter hf
  refine ⟨narrowed, hf, ⟨?_, ?_⟩, fun cause => hi.tooDeep_of_filter hsecond⟩
  · intro ht
    obtain ⟨hpasses', hways'⟩ := hn.exists_filter_iff.mp ht
    refine ⟨hi.exists_filter_iff.mpr ⟨hsecond, fun deepest way hw => ?_⟩, fun name hfades =>
      hi.not_reliesOn_of_filter hl hf hpasses' hfades⟩
    exact hdepth ▸ hways' deepest way (hw.congr hvirtual)
  · rintro ⟨halone, hfades⟩
    obtain ⟨-, hways⟩ := hi.exists_filter_iff.mp halone
    refine hn.exists_filter_iff.mpr ⟨fun leaf hleaf => ?_, fun deepest way hw => ?_⟩
    · obtain ⟨column, hc, hsuits⟩ := hsecond leaf hleaf
      obtain ⟨column', hc'⟩ := hi.exists_meaning_narrowed hl hf leaf.1 column hc
        fun reader source hneeds hreads hfaded =>
          hfades source hfaded (.text hleaf hneeds hreads)
      refine ⟨column', hc', ?_⟩
      by_cases hfaded : view.Fades narrowed leaf.1
      · rw [hfaded.kind hi hl hf hc']
        by_contra hmisfit
        exact hfades leaf.1 hfaded (.test hleaf hmisfit)
      · rwa [hi.kind_of_filter hl hf hc hc' hfaded]
    · rw [hdepth]
      exact hways deepest way (hw.congr hvirtual.symm)

end Steps

/-! ### A view of labels -/

/-- The label of a score above three. -/
def label : List Scalar → Scalar
  | [.int score] => if 3 < score then .string "high" else .null
  | _ => .null

/-- Two scores, with a function that labels the high ones. -/
def ungraded : View where
  table := ⟨[("score", .ofInts #[1, 5])]⟩
  mask := none
  functions := ⟨[("label", .elementwise label)]⟩
  virtuals := []
  positions := ∅
  maxDepth := defaultMaxDepth

/-- The scores and their labels. -/
def labels : View :=
  ungraded.insertVirtual ⟨"grade", "label", ["score"]⟩

/-- The score is labelled as high. -/
def labelledHigh : Predicate :=
  .leaf "grade" (.compare .eq (.string "high"))

/-- The view of labels narrowed to the low score. -/
def lowLabels : View :=
  { labels with mask := some (.ofList [true, false]) }

theorem reachable_labels : labels.Reachable := by
  have ht : Table.Built ungraded.table := .addColumn .empty (.ofInts _) rfl
  have hu : ungraded.Reachable := (Reachable.ofTable ht).after
    (show (Operation.register "label" (.elementwise label)).Sound from
      ColumnFunction.sound_elementwise label)
  have hcontains : ∀ name, ungraded.contains name = (name == "score") :=
    contains_of_names rfl rfl
  exact hu.insertVirtual (by simp [hcontains]) rfl (by simp [hcontains])

theorem contains_labels (name : String) :
    labels.contains name = (name == "score" || "grade" == name) := by
  rw [labels, contains_insertVirtual, contains_of_names rfl rfl]

theorem lifted_labels : labels.Lifted := by
  intro name function hf
  obtain ⟨-, rfl⟩ := Prod.mk.inj (List.mem_singleton.mp (Registry.mem_of_get? hf))
  exact .elementwise label rfl

theorem lifted_shallow : shallow.Lifted := by
  intro name function hf
  have hm : (name, function) ∈ TextFunction.named := Registry.mem_of_get? hf
  simp only [TextFunction.named, List.mem_cons, List.not_mem_nil, or_false, Prod.mk.injEq] at hm
  rcases hm with ⟨-, rfl⟩ | ⟨-, rfl⟩ | ⟨-, rfl⟩ | ⟨-, rfl⟩ <;> exact .text _ rfl

theorem filter_labels {predicate : Predicate} {mask : Mask}
    (hc : ∀ name ∈ predicate.columns, labels.contains name = true)
    (hn : labels.narrowed predicate = .ok mask) :
    (labels.filter predicate).outcome = .ok { labels with mask := some mask } := by
  rw [reachable_labels.invariant.filter_of_room (by decide) hc, hn]
  rfl

theorem filter_low_labels : (labels.filter low).outcome = .ok lowLabels :=
  filter_labels (by simp [low, contains_labels]) (by decide +kernel)

theorem virtualColumn?_grade : labels.virtualColumn? "grade" = some ⟨"grade", "label", ["score"]⟩ :=
  reachable_labels.invariant.virtualColumn?_eq_some_iff.mpr ⟨by decide, rfl⟩

/-- There is no label among the low scores. -/
theorem fades_grade : labels.Fades lowLabels "grade" := by
  obtain ⟨column, hc, hcolumn⟩ := Outcome.eq_ok_of_map_toOption
    (show (labels.meaning "grade").toOption.map
        (fun column => (column.kind, (column.cell 0).kind?)) = some (.string, none) by
      decide +kernel)
  obtain ⟨hkind, hcell⟩ := Prod.mk.inj hcolumn
  refine ⟨virtualColumn?_grade, rfl, hc, by simp [hkind], fun place hp => ?_⟩
  rw [show labels.placesShown lowLabels = [0] by decide +kernel, List.mem_singleton] at hp
  rw [hp]
  by_contra hvalue
  obtain ⟨kind, hk⟩ := Column.exists_kind? hvalue
  cases hcell.symm.trans hk

/-- The two leaves of the view with little room, put together. -/
theorem exists_filter_shallow :
    ∃ both, (shallow.filter
      (.and (.leaf "capitals" .isNotNull) (.leaf "length" .isNotNull))).outcome = .ok both := by
  obtain ⟨texts, htexts, -⟩ := Outcome.eq_ok_of_map_toOption
    (show (shallow.meaning "capitals").toOption.map (·.length) = some 2 by decide +kernel)
  obtain ⟨lengths, hlengths, -⟩ := Outcome.eq_ok_of_map_toOption
    (show (shallow.meaning "length").toOption.map (·.length) = some 2 by decide +kernel)
  have hi := reachable_shallow.invariant
  have htext : shallow.virtualColumn? "text" = none :=
    hi.virtualColumn?_eq_none_iff.mpr (by decide)
  have hafter : shallow.AfterSources [] ["capitals", "length"] := by
    refine ⟨fun source hs => .inl ?_, fun source hs => .inr ?_, trivial⟩
    · rwa [List.mem_singleton.mp (mem_sources_of_directSource virtualColumn?_capitals hs)]
    · exact mem_sources_of_directSource virtualColumn?_length hs
  refine hi.exists_filter_iff.mpr ⟨List.forall_mem_cons.mpr ⟨?_, List.forall_mem_cons.mpr ⟨?_, ?_⟩⟩,
    fun deepest way hw => hw.length_le_one hafter (by simp)⟩
  · exact ⟨texts, htexts, .isNotNull _⟩
  · exact ⟨lengths, hlengths, .isNotNull _⟩
  · nofun

theorem exists_filter_labels :
    ∃ both, (labels.filter (.and low labelledHigh)).outcome = .ok both :=
  ⟨_, filter_labels (by simp [low, labelledHigh, contains_labels])
    (show labels.narrowed _ = .ok (.ofList [false, false]) by decide +kernel)⟩

theorem exists_filter_unlabelled :
    ∃ both, (labels.filter (.and low (.leaf "grade" .isNull))).outcome = .ok both :=
  ⟨_, filter_labels (by simp [low, contains_labels])
    (show labels.narrowed _ = .ok (.ofList [true, false]) by decide +kernel)⟩

/-- **Narrowing in steps may fail** where narrowing at once does not: because a column fades, and
because what the first predicate has found is not remembered for the second. -/
theorem filter_in_steps_fails :
    (labels.Reachable ∧ labels.Lifted ∧
      (∃ both, (labels.filter (.and low labelledHigh)).outcome = .ok both) ∧
      (labels.filter low).outcome = .ok lowLabels ∧
      (lowLabels.filter labelledHigh).outcome =
        .error (.error (.data (.typeMismatch "comparison on column grade" "float" "string")))) ∧
    (shallow.Reachable ∧ shallow.Lifted ∧
      (∃ both, (shallow.filter
        (.and (.leaf "capitals" .isNotNull) (.leaf "length" .isNotNull))).outcome = .ok both) ∧
      ∃ narrowed, (shallow.filter (.leaf "capitals" .isNotNull)).outcome = .ok narrowed ∧
        ∀ twice, (narrowed.filter (.leaf "length" .isNotNull)).outcome ≠ .ok twice) := by
  refine ⟨⟨reachable_labels, lifted_labels, exists_filter_labels, filter_low_labels, ?_⟩,
    reachable_shallow, lifted_shallow, exists_filter_shallow, ?_⟩
  · have hcontains : lowLabels.contains "grade" = true := contains_labels "grade"
    rw [(reachable_labels.invariant.filter filter_low_labels).filter_of_room (by decide)
        (by simp [labelledHigh, hcontains]),
      show lowLabels.narrowed labelledHigh =
        .error (.error (.data (.typeMismatch "comparison on column grade" "float" "string"))) by
          decide +kernel]
    rfl
  · have hi := reachable_shallow.invariant
    obtain ⟨hpasses, hways⟩ := hi.exists_filter_iff.mp exists_filter_shallow
    obtain ⟨narrowed, hf⟩ : ∃ narrowed,
        (shallow.filter (.leaf "capitals" .isNotNull)).outcome = .ok narrowed :=
      hi.exists_filter_iff.mpr ⟨fun leaf hl => hpasses leaf (List.mem_append_left _ hl),
        fun deepest way hw => hways deepest way (hw.append ["length"])⟩
    obtain ⟨hvirtual, -, -, hdepth⟩ := hi.shared_of_filter hf
    refine ⟨narrowed, hf, fun twice ht => ?_⟩
    have hdeep : shallow.FirstWay "capitals" ["length"] ["length", "capitals"] :=
      .down virtualColumn?_length (.here virtualColumn?_capitals)
    have hshort := ((hi.filter hf).exists_filter_iff.mp ⟨twice, ht⟩).2 _ _ (hdeep.congr hvirtual)
    rw [hdepth] at hshort
    exact absurd hshort (by decide)

/-- Among the low scores, the labels cannot be compared with a text any more, but that there are
none can still be tested. -/
theorem filter_in_steps_labels :
    labels.Reachable ∧ labels.Lifted ∧
      (∃ both, (labels.filter (.and low labelledHigh)).outcome = .ok both) ∧
      (∀ twice, (lowLabels.filter labelledHigh).outcome ≠ .ok twice) ∧
      ∃ twice, (lowLabels.filter (.leaf "grade" .isNull)).outcome = .ok twice := by
  obtain ⟨both, hboth⟩ := exists_filter_labels
  obtain ⟨narrowed, hf, hhigh, -⟩ := reachable_labels.filter_in_steps lifted_labels hboth
  obtain rfl := Except.ok.inj (filter_low_labels.symm.trans hf)
  obtain ⟨unlabelled, hunlabelled⟩ := exists_filter_unlabelled
  obtain ⟨narrowed, hf, hnone, -⟩ := reachable_labels.filter_in_steps lifted_labels hunlabelled
  obtain rfl := Except.ok.inj (filter_low_labels.symm.trans hf)
  refine ⟨reachable_labels, lifted_labels, ⟨both, hboth⟩, fun twice ht => ?_, hnone.mpr ⟨?_, ?_⟩⟩
  · refine (hhigh.mp ⟨twice, ht⟩).2 "grade" fades_grade (.test List.mem_cons_self ?_)
    rw [Test.suits_compare_iff]
    simp [Literal.kind, Kind.Numeric]
  · exact ⟨_, filter_labels (by simp [contains_labels])
      (show labels.narrowed _ = .ok (.ofList [true, false]) by decide +kernel)⟩
  · rintro name hfades (⟨hl, hs⟩ | ⟨-, -, declared, operation, hv, -, hs⟩)
    · obtain ⟨-, rfl⟩ := Prod.mk.inj (List.mem_singleton.mp hl)
      exact hs (.isNull _)
    · -- the only source of a virtual column is stored, so it does not fade
      obtain ⟨hm, -⟩ := reachable_labels.invariant.virtualColumn?_eq_some_iff.mp hv
      obtain rfl := List.mem_singleton.mp hm
      obtain rfl := List.mem_singleton.mp hs
      obtain ⟨hv, -, -, -, -⟩ := hfades
      obtain ⟨hm, hname⟩ := reachable_labels.invariant.virtualColumn?_eq_some_iff.mp hv
      rw [List.mem_singleton.mp hm] at hname
      exact absurd hname (by decide)

end View

end RowSieve

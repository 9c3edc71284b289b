import Mathlib.Data.List.Induction
import RowSieve.Proofs.View.Invariant

/-!
# The order of the columns that are needed

What a column needs comes before it.  Following the sources of the columns asked for, each in the
order in which it is given, and taking a column down once everything that it needs is down, lists
the needed columns in depth-first post-order.

`View.PostOrder` says of a list that it is this order; nothing in it speaks of resolvers.

* `View.PostOrder.unique`, `View.Invariant.exists_postOrder`: there is one such list, and only one.
* `View.PostOrder.mem_iff`: its members are the columns asked for and all that they need.
* `View.Invariant.nodup_of_postOrder`, `View.PostOrder.sourcesFirst`: each is listed once, after its
  sources.
-/

namespace RowSieve.View

/-- The columns that a column is computed from; none if it is not virtual. -/
def sourcesOf (view : View) (name : String) : List String :=
  ((view.virtualColumn? name).map (·.sources)).getD []

/-- **Depth-first post-order.**  The columns `names` are visited one after another, and what a
column needs is visited before it is listed; those of `done` were listed before. -/
inductive PostOrder (view : View) : List String → List String → List String → Prop where
  | nil (done : List String) : PostOrder view done [] done
  | seen {done names order : List String} {name : String} (hn : name ∈ done)
      (hr : PostOrder view done names order) : PostOrder view done (name :: names) order
  | visit {done inner names order : List String} {name : String} (hn : name ∉ done)
      (hs : PostOrder view done (view.sourcesOf name) inner)
      (hr : PostOrder view (inner ++ [name]) names order) :
      PostOrder view done (name :: names) order

theorem mem_sourcesOf {view : View} {name source : String} :
    source ∈ view.sourcesOf name ↔ view.DirectSource name source := by
  rw [sourcesOf, DirectSource]
  cases view.virtualColumn? name <;> simp

theorem sourcesOf_of_virtual {view : View} {name : String} {column : VirtualColumn}
    (hc : view.virtualColumn? name = some column) : view.sourcesOf name = column.sources := by
  rw [sourcesOf, hc]
  rfl

theorem sourcesOf_of_not_virtual {view : View} {name : String}
    (hn : view.virtualColumn? name = none) : view.sourcesOf name = [] := by
  rw [sourcesOf, hn]
  rfl

namespace PostOrder

variable {view : View} {done names order : List String}

/-- What was listed before stays. -/
theorem isPrefix (h : view.PostOrder done names order) : done <+: order := by
  induction h with
  | nil => exact List.prefix_rfl
  | seen _ _ ih => exact ih
  | visit _ _ _ ihs ihr => exact ihs.trans ((List.prefix_append _ _).trans ihr)

theorem unique {other : List String} (h : view.PostOrder done names order)
    (ho : view.PostOrder done names other) : order = other := by
  induction h generalizing other with
  | nil =>
      cases ho
      rfl
  | seen hn _ ih =>
      cases ho with
      | seen _ hr => exact ih hr
      | visit hn' => exact absurd hn hn'
  | visit hn _ _ ihs ihr =>
      cases ho with
      | seen hn' => exact absurd hn' hn
      | visit _ hs hr =>
          obtain rfl := ihs hs
          exact ihr hr

theorem append {more last : List String} (h : view.PostOrder done names order)
    (hm : view.PostOrder order more last) : view.PostOrder done (names ++ more) last := by
  induction h with
  | nil => exact hm
  | seen hn _ ih => exact .seen hn (ih hm)
  | visit hn hs _ _ ihr => exact .visit hn hs (ihr hm)

/-- Columns asked for in two portions. -/
theorem exists_of_append {more last : List String}
    (h : view.PostOrder done (names ++ more) last) :
    ∃ order, view.PostOrder done names order ∧ view.PostOrder order more last := by
  induction names generalizing done with
  | nil => exact ⟨done, .nil done, h⟩
  | cons name names ih =>
      cases h with
      | seen hn hr =>
          obtain ⟨order, hnames, hmore⟩ := ih hr
          exact ⟨order, .seen hn hnames, hmore⟩
      | visit hn hs hr =>
          obtain ⟨order, hnames, hmore⟩ := ih hr
          exact ⟨order, .visit hn hs hnames, hmore⟩

/-! ### Members -/

/-- What is asked for is listed. -/
theorem mem_of_asked (h : view.PostOrder done names order) {name : String} (hn : name ∈ names) :
    name ∈ order := by
  induction h with
  | nil => cases hn
  | seen hd hr ih =>
      rcases List.mem_cons.mp hn with rfl | hn
      · exact hr.isPrefix.subset hd
      · exact ih hn
  | visit _ _ hr _ ihr =>
      rcases List.mem_cons.mp hn with rfl | hn
      · exact hr.isPrefix.subset (by simp)
      · exact ihr hn

/-- What is listed is needed. -/
theorem needed_of_mem (h : view.PostOrder done names order) {name : String} (hn : name ∈ order) :
    name ∈ done ∨ ∃ asked ∈ names, Relation.ReflTransGen view.DirectSource asked name := by
  induction h with
  | nil => exact .inl hn
  | seen _ _ ih =>
      refine (ih hn).imp_right ?_
      rintro ⟨asked, ha, hr⟩
      exact ⟨asked, List.mem_cons_of_mem _ ha, hr⟩
  | @visit done inner names order visited _ _ _ ihs ihr =>
      rcases ihr hn with hn | ⟨asked, ha, hr⟩
      · rcases List.mem_append.mp hn with hn | hn
        · refine (ihs hn).imp_right ?_
          rintro ⟨source, hs, hr⟩
          exact ⟨visited, List.mem_cons_self, .head (mem_sourcesOf.mp hs) hr⟩
        · obtain rfl := List.mem_singleton.mp hn
          exact .inr ⟨name, List.mem_cons_self, .refl⟩
      · exact .inr ⟨asked, List.mem_cons_of_mem _ ha, hr⟩

end PostOrder

/-! ### Sources first -/

/-- In the list, sources come before what is computed from them. -/
def SourcesFirst (view : View) (order : List String) : Prop :=
  ∀ before name after, order = before ++ name :: after →
    ∀ source, view.DirectSource name source → source ∈ before

theorem sourcesFirst_nil (view : View) : view.SourcesFirst [] := by
  intro before name after h
  simp at h

theorem SourcesFirst.concat {view : View} {order : List String} (h : view.SourcesFirst order)
    {name : String} (hs : ∀ source, view.DirectSource name source → source ∈ order) :
    view.SourcesFirst (order ++ [name]) := by
  intro before other after heq
  rcases List.eq_nil_or_concat' after with rfl | ⟨rest, last, rfl⟩
  · obtain ⟨rfl, hname⟩ := List.append_inj' heq rfl
    obtain rfl := List.singleton_inj.mp hname
    exact hs
  · rw [← List.cons_append, ← List.append_assoc] at heq
    exact h before other rest (List.append_inj' heq rfl).1

/-- With every column that is listed, its sources are. -/
theorem SourcesFirst.mem {view : View} {order : List String} (h : view.SourcesFirst order)
    {name source : String} (hn : name ∈ order)
    (hr : Relation.ReflTransGen view.DirectSource name source) : source ∈ order := by
  induction hr with
  | refl => exact hn
  | tail _ hd ih =>
      obtain ⟨before, after, rfl⟩ := List.append_of_mem ih
      exact List.mem_append_left _ (h before _ after rfl _ hd)

section Order

variable {view : View} {done names order : List String}

/-- **Sources are listed first.** -/
theorem PostOrder.sourcesFirst (h : view.PostOrder done names order)
    (hd : view.SourcesFirst done) : view.SourcesFirst order := by
  induction h with
  | nil => exact hd
  | seen _ _ ih => exact ih hd
  | visit _ hs _ ihs ihr =>
      refine ihr ((ihs hd).concat fun source hsource => ?_)
      exact hs.mem_of_asked (mem_sourcesOf.mpr hsource)

/-- **The members are the columns asked for and all that they need.** -/
theorem PostOrder.mem_iff (h : view.PostOrder [] names order) {name : String} :
    name ∈ order ↔ ∃ asked ∈ names, Relation.ReflTransGen view.DirectSource asked name := by
  constructor
  · intro hn
    exact (h.needed_of_mem hn).resolve_left List.not_mem_nil
  · rintro ⟨asked, ha, hr⟩
    exact (h.sourcesFirst view.sourcesFirst_nil).mem (h.mem_of_asked ha) hr

/-- **Each column is listed once.** -/
theorem Invariant.nodup_of_postOrder (hi : view.Invariant) (h : view.PostOrder done names order)
    (hd : done.Nodup) : order.Nodup := by
  induction h with
  | nil => exact hd
  | seen _ _ ih => exact ih hd
  | @visit done inner names order name hn hs _ ihs ihr =>
      refine ihr ((ihs hd).append (List.nodup_singleton name) ?_)
      rw [List.disjoint_singleton]
      intro hinner
      -- the column would be needed by one of its own sources
      obtain ⟨source, hsource, hr⟩ := (hs.needed_of_mem hinner).resolve_left hn
      exact hi.not_transGen_self (mem_sourcesOf.mp hsource) hr

theorem exists_postOrder_of_each
    (h : ∀ name ∈ names, ∀ done, ∃ order, view.PostOrder done [name] order) (done : List String) :
    ∃ order, view.PostOrder done names order := by
  induction names generalizing done with
  | nil => exact ⟨done, .nil done⟩
  | cons name names ih =>
      obtain ⟨middle, hfirst⟩ := h name List.mem_cons_self done
      obtain ⟨order, hrest⟩ := ih (fun other ho => h other (List.mem_cons_of_mem name ho)) middle
      exact ⟨order, hfirst.append hrest⟩

/-- A column comes after its sources, unless it is listed already. -/
theorem Invariant.exists_postOrder_singleton (hi : view.Invariant) (name : String)
    (done : List String) : ∃ order, view.PostOrder done [name] order := by
  induction name using hi.induction generalizing done with
  | step name ih =>
      by_cases hn : name ∈ done
      · exact ⟨done, .seen hn (.nil done)⟩
      · obtain ⟨inner, hinner⟩ := exists_postOrder_of_each
          (fun source hs => ih source (mem_sourcesOf.mp hs)) done
        exact ⟨inner ++ [name], .visit hn hinner (.nil _)⟩

/-- **There is such an order.** -/
theorem Invariant.exists_postOrder (hi : view.Invariant) (done names : List String) :
    ∃ order, view.PostOrder done names order :=
  exists_postOrder_of_each (fun name _ => hi.exists_postOrder_singleton name) done

/-- Columns of which all are listed add nothing. -/
theorem postOrder_of_subset (h : ∀ name ∈ names, name ∈ done) : view.PostOrder done names done := by
  induction names with
  | nil => exact .nil done
  | cons name names ih =>
      refine .seen (h name List.mem_cons_self) (ih ?_)
      intro other ho
      exact h other (List.mem_cons_of_mem name ho)

/-- **A list with the sources first** is in depth-first post-order as it stands. -/
theorem SourcesFirst.postOrder (h : view.SourcesFirst order) (hn : order.Nodup) :
    view.PostOrder [] order order := by
  induction order using List.reverseRecOn with
  | nil => exact .nil []
  | append_singleton order name ih =>
      have hnodup := List.nodup_append.mp hn
      have hfirst : view.SourcesFirst order := by
        intro before other after heq source hd
        refine h before other (after ++ [name]) ?_ source hd
        rw [heq, List.append_assoc, List.cons_append]
      have hsources : view.PostOrder order (view.sourcesOf name) order := by
        refine postOrder_of_subset ?_
        intro source hs
        exact h order name [] rfl source (mem_sourcesOf.mp hs)
      have hfresh : name ∉ order := by
        intro hname
        exact hnodup.2.2 name hname name (List.mem_singleton_self name) rfl
      exact (ih hfirst hnodup.1).append (.visit hfresh hsources (.nil _))

/-- **The columns of a view** have the sources first. -/
theorem Invariant.sourcesFirst_columnNames (h : view.Invariant) :
    view.SourcesFirst view.columnNames := by
  intro before name after heq source hd
  obtain ⟨column, hv, hs⟩ := hd
  obtain ⟨hmem, rfl⟩ := h.virtualColumn?_eq_some_iff.mp hv
  obtain ⟨position, hp⟩ := List.mem_iff_getElem?.mp hmem
  -- names are given once, so the column stands where it was declared
  have hplace : view.columnNames[view.table.names.length + position]? = some column.name := by
    rw [columnNames, List.getElem?_append_right (by omega), Nat.add_sub_cancel_left,
      List.getElem?_map, hp]
    rfl
  have hlength : before.length = view.table.names.length + position := by
    refine (List.getElem?_inj ?_ h.names).mp ?_
    · rw [heq, List.length_append, List.length_cons]
      omega
    · rw [hplace, heq, List.getElem?_append_right (Nat.le_refl _), Nat.sub_self]
      rfl
  have hbefore : before = view.table.names ++ view.virtualNames.take position := by
    have htake := congrArg (List.take before.length) heq
    rw [List.take_left', hlength, columnNames, List.take_length_add_append] at htake
    · exact htake.symm
    · rfl
  rw [hbefore]
  rcases h.sources position column hp source hs with hstored | ⟨earlier, hlt, hname⟩
  · exact List.mem_append_left _ hstored
  · refine List.mem_append_right _ (List.mem_iff_getElem?.mpr ⟨earlier, ?_⟩)
    rw [List.getElem?_take_of_lt hlt, hname]

end Order

end RowSieve.View

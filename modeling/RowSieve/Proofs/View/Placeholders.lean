import RowSieve.Proofs.Column.SameCells
import RowSieve.Proofs.View.Requests

/-!
# Placeholders do not show

Two views of tables with the same cells are asked the same questions.  Their resolvers go through
the same steps, and what these remember differs in placeholders alone.

`View.Mirrors` compares the two runs: from resolvers that match, both give values that are related,
or both end for one reason; and they leave resolvers that match.

* `View.Mirrors.bind`, `View.Mirrors.mapM`, `View.Mirrors.remembered`: this is kept by sequences, by
  runs over lists and by the memory.
* `View.Twins.mirrors_resolveAt`, `View.Twins.mirrors_narrow`, `View.Twins.mirrors_copies`: twin
  views resolve columns, narrow and copy so.
* `View.Reachable.placeholders_hidden`: hence nothing that a view answers tells what stands behind a
  null.
-/

namespace RowSieve.View

open Resolve Outcome

/-! ### Twin views -/

/-- **Views that differ at most in the slots behind nulls.**  The functions of their virtual
columns are lifted from functions on cells, or functions on texts. -/
structure Twins (view other : View) : Prop where
  table : view.table.SameCells other.table
  mask : view.mask = other.mask
  virtuals : view.virtuals = other.virtuals
  maxDepth : view.maxDepth = other.maxDepth
  functions : ∀ column ∈ view.virtuals, ∃ function : ColumnFunction,
    view.functions.get? column.function = some function ∧
      other.functions.get? column.function = some function ∧ function.Lifted

/-! ### Two runs -/

/-- Resolvers that remember columns that match. -/
structure Matching (left right : Resolver) : Prop where
  memo : MatchingEntries left.memo right.memo
  stuck : left.stuck = right.stuck

/-- **How two runs end**: both with values that are related, or both for one reason. -/
inductive Mirrored {α β : Type} (r : α → β → Prop) :
    EStateM.Result (Abort EvalError) Resolver α → EStateM.Result (Abort EvalError) Resolver β →
      Prop where
  | ok {value : α} {other : β} {left right : Resolver} (h : r value other)
      (hm : Matching left right) : Mirrored r (.ok value left) (.ok other right)
  | error {cause : Abort EvalError} {left right : Resolver} (hm : Matching left right) :
      Mirrored r (.error cause left) (.error cause right)

/-- **Two computations that mirror each other**, from resolvers that match. -/
def Mirrors {α β : Type} (r : α → β → Prop) (action : Resolve α) (other : Resolve β) : Prop :=
  ∀ left right, Matching left right → Mirrored r (action left) (other right)

section Rules

variable {α β γ η : Type} {r : α → β → Prop}

theorem mirrors_pure {value : α} {other : β} (h : r value other) :
    Mirrors r (pure value) (pure other) :=
  fun _ _ hm => .ok h hm

theorem mirrors_fail (error : EvalError) : Mirrors r (fail error) (fail error) :=
  fun _ _ hm => .error hm

/-- Events do not matter. -/
theorem mirrors_record (event event' : Event) {action : Resolve α} {other : Resolve β}
    (h : Mirrors r action other) :
    Mirrors r (record event >>= fun _ => action) (record event' >>= fun _ => other) := by
  intro left right hm
  exact h { left with journal := left.journal ++ [event] }
    { right with journal := right.journal ++ [event'] } ⟨hm.memo, hm.stuck⟩

theorem mirrors_settle (path : List String) {outcome : Outcome EvalError α}
    {outcome' : Outcome EvalError β} (h : Related r outcome outcome') :
    Mirrors r (settle path outcome) (settle path outcome') := by
  intro left right hm
  cases h with
  | ok h => exact .ok h hm
  | error cause =>
      cases cause with
      | error error => exact .error hm
      | fault broken => exact .error ⟨hm.memo, rfl⟩

theorem Mirrors.bind {s : γ → η → Prop} {action : Resolve α} {other : Resolve β}
    {next : α → Resolve γ} {next' : β → Resolve η} (h : Mirrors r action other)
    (hn : ∀ value value', r value value' → Mirrors s (next value) (next' value')) :
    Mirrors s (action >>= next) (other >>= next') := by
  intro left right hm
  have ha := h left right hm
  show Mirrored s (EStateM.bind action next left) (EStateM.bind other next' right)
  rw [EStateM.bind, EStateM.bind]
  generalize action left = result, other right = result' at ha ⊢
  cases ha with
  | ok h hm => exact hn _ _ h _ _ hm
  | error hm => exact .error hm

theorem Mirrors.mapM {δ : Type} {action : δ → Resolve α} {other : δ → Resolve β} {xs : List δ}
    (h : ∀ x ∈ xs, Mirrors r (action x) (other x)) :
    Mirrors (List.Forall₂ r) (xs.mapM action) (xs.mapM other) := by
  induction xs with
  | nil => exact mirrors_pure .nil
  | cons x xs ih =>
      rw [List.mapM_cons, List.mapM_cons]
      refine (h x List.mem_cons_self).bind ?_
      intro value value' hvalue
      refine (ih fun y hy => h y (List.mem_cons_of_mem x hy)).bind ?_
      intro values values' hvalues
      exact mirrors_pure (.cons hvalue hvalues)

theorem Mirrors.foldlM {δ : Type} {action : α → δ → Resolve α} {other : β → δ → Resolve β}
    {xs : List δ}
    (h : ∀ start start', r start start' → ∀ x ∈ xs, Mirrors r (action start x) (other start' x))
    {start : α} {start' : β} (hs : r start start') :
    Mirrors r (xs.foldlM action start) (xs.foldlM other start') := by
  induction xs generalizing start start' with
  | nil => exact mirrors_pure hs
  | cons x xs ih =>
      rw [List.foldlM_cons, List.foldlM_cons]
      refine (h start start' hs x List.mem_cons_self).bind ?_
      intro next next' hnext
      exact ih (fun start start' hs y hy => h start start' hs y (List.mem_cons_of_mem x hy)) hnext

/-- **The memories** remember one and the same names. -/
theorem Mirrors.remembered {name : String} {compute compute' : Resolve Column}
    (h : Mirrors Column.Matches compute compute') :
    Mirrors Column.Matches (remembered name compute) (remembered name compute') := by
  intro left right hm
  have hlookup := hm.memo.lookup name
  cases hl : left.memo.lookup name with
  | some column =>
      cases hr : right.memo.lookup name with
      | some other =>
          rw [hl, hr] at hlookup
          rw [remembered_of_some hl, remembered_of_some hr]
          cases hlookup with
          | some hc => exact .ok hc hm
      | none =>
          rw [hl, hr] at hlookup
          cases hlookup
  | none =>
      cases hr : right.memo.lookup name with
      | some other =>
          rw [hl, hr] at hlookup
          cases hlookup
      | none =>
          have hc := h left right hm
          rw [remembered_of_none hl, remembered_of_none hr]
          generalize compute left = result, compute' right = result' at hc ⊢
          cases hc with
          | ok hc hm => exact .ok hc ⟨.cons ⟨rfl, hc⟩ hm.memo, hm.stuck⟩
          | error hm => exact .error hm

theorem Mirrors.run {action : Resolve α} {other : Resolve β} (h : Mirrors r action other) :
    Related r (action.run .fresh).1.outcome (other.run .fresh).1.outcome := by
  have ha := h .fresh .fresh ⟨.nil, rfl⟩
  rw [Resolve.run, Resolve.run]
  change Mirrored r (EStateM.run action { Resolver.fresh with journal := [] })
    (EStateM.run other { Resolver.fresh with journal := [] }) at ha
  generalize EStateM.run action { Resolver.fresh with journal := [] } = result,
    EStateM.run other { Resolver.fresh with journal := [] } = result' at ha ⊢
  cases ha with
  | ok h _ => exact .ok h
  | error => exact .error _

end Rules

/-! ### Resolving -/

section Twins

variable {view other : View}

theorem Twins.columns (ht : view.Twins other) (hi : view.Invariant) :
    view.table.Matches other.table :=
  ht.table.matches hi.table

theorem Twins.rows (ht : view.Twins other) (hi : view.Invariant) : view.rows = other.rows := by
  rw [View.rows, View.rows, ht.mask, (ht.columns hi).rowCount]

theorem Twins.visibleCount (ht : view.Twins other) (hi : view.Invariant) :
    view.visibleCount = other.visibleCount := by
  rw [View.visibleCount, View.visibleCount, ht.mask, (ht.columns hi).rowCount]

theorem Twins.columnNames (ht : view.Twins other) (hi : view.Invariant) :
    view.columnNames = other.columnNames := by
  rw [View.columnNames, View.columnNames, (ht.columns hi).names, ht.virtuals]

theorem Twins.virtualColumn? (ht : view.Twins other) (hi : view.Invariant) (ho : other.Invariant)
    (name : String) : view.virtualColumn? name = other.virtualColumn? name := by
  refine Option.ext ?_
  intro column
  rw [hi.virtualColumn?_eq_some_iff, ho.virtualColumn?_eq_some_iff, ht.virtuals]

theorem Twins.mirrors_gather (ht : view.Twins other) (hi : view.Invariant) (ho : other.Invariant)
    (path : List String) (name : String) :
    Mirrors Column.Matches (view.gather path name) (other.gather path name) := by
  have hget := (ht.columns hi).get? name
  cases hl : view.table.get? name with
  | none =>
      cases hr : other.table.get? name with
      | none =>
          rw [gather, gather, hl, hr]
          exact mirrors_fail _
      | some stored' =>
          rw [hl, hr] at hget
          cases hget
  | some stored =>
      cases hr : other.table.get? name with
      | none =>
          rw [hl, hr] at hget
          cases hget
      | some stored' =>
          rw [hl, hr] at hget
          cases hget with
          | some hm =>
              rw [hi.gather_eq path hl, ho.gather_eq path hr, ht.rows hi]
              refine mirrors_record _ _ (mirrors_pure (hm.taken ?_))
              intro row hrow
              rw [(hi.table.wellFormed_of_get? hl).2]
              exact hi.lt_of_mem_rows (ht.rows hi ▸ hrow)

theorem Twins.mirrors_compute (ht : view.Twins other) (hi : view.Invariant) (ho : other.Invariant)
    (path : List String) (column : VirtualColumn) {function : ColumnFunction} (hf : function.Lifted)
    {arguments arguments' : List Column} (ha : List.Forall₂ Column.Matches arguments arguments') :
    Mirrors Column.Matches (view.compute path column function arguments)
      (other.compute path column function arguments') := by
  rw [hi.compute_eq, ho.compute_eq, applied, applied, ht.visibleCount hi]
  refine mirrors_record _ _ (mirrors_settle path ?_)
  rw [appliedOver, appliedOver]
  refine ((hf.related ha).mapError _).bind ?_
  intro output output' hm
  rw [hm.same.length]
  split
  · exact .ok hm
  · exact .error _

/-- **Twin views resolve columns alike.** -/
theorem Twins.mirrors_resolveAt (ht : view.Twins other) (hi : view.Invariant) (ho : other.Invariant)
    (room : Nat) (path : List String) (name : String) :
    Mirrors Column.Matches (view.resolveAt room path name) (other.resolveAt room path name) := by
  induction room generalizing path name with
  | zero =>
      rw [resolveAt, resolveAt, ← ht.virtualColumn? hi ho, ht.maxDepth]
      refine Mirrors.remembered ?_
      cases view.virtualColumn? name with
      | none => exact ht.mirrors_gather hi ho path name
      | some column =>
          dsimp only
          split
          · exact mirrors_fail _
          · exact mirrors_fail _
  | succ room ih =>
      rw [resolveAt, resolveAt, ← ht.virtualColumn? hi ho]
      refine Mirrors.remembered ?_
      cases hv : view.virtualColumn? name with
      | none => exact ht.mirrors_gather hi ho path name
      | some column =>
          obtain ⟨hmem, -⟩ := hi.virtualColumn?_eq_some_iff.mp hv
          obtain ⟨function, hf, hf', hlifted⟩ := ht.functions column hmem
          dsimp only
          split
          · exact mirrors_fail _
          · rw [hf, hf']
            refine mirrors_record _ _ (Mirrors.bind (.mapM fun source _ => ih _ source) ?_)
            intro arguments arguments' ha
            exact ht.mirrors_compute hi ho path column hlifted ha

theorem Twins.mirrors_resolve (ht : view.Twins other) (hi : view.Invariant) (ho : other.Invariant)
    (name : String) : Mirrors Column.Matches (view.resolve name) (other.resolve name) := by
  intro left right hm
  show Mirrored _ (view.resolveAt (view.maxDepth - left.stuck.length) left.stuck name left)
    (other.resolveAt (other.maxDepth - right.stuck.length) right.stuck name right)
  rw [ht.maxDepth, hm.stuck]
  exact ht.mirrors_resolveAt hi ho _ _ name left right hm

/-! ### Narrowing and copying -/

/-- The rows that satisfy a predicate are the same ones. -/
theorem Twins.mirrors_search (ht : view.Twins other) (hi : view.Invariant) (ho : other.Invariant)
    (predicate : Predicate) : Mirrors Eq (view.search predicate) (other.search predicate) := by
  rw [search, search]
  induction predicate with
  | leaf name test =>
      refine (ht.mirrors_resolve hi ho name).bind ?_
      intro column column' hm
      rw [test.bits_of_matches name hm]
      exact mirrors_settle [] (related_of_eq fun _ _ => rfl)
  | and left right ihl ihr | or left right ihl ihr =>
      refine ihl.bind ?_
      rintro leftBits _ rfl
      refine ihr.bind ?_
      rintro rightBits _ rfl
      exact mirrors_settle [] (related_of_eq fun _ _ => rfl)
  | not inner ih =>
      refine ih.bind ?_
      rintro bits _ rfl
      exact mirrors_pure rfl

theorem Twins.mirrors_narrow (ht : view.Twins other) (hi : view.Invariant) (ho : other.Invariant)
    (predicate : Predicate) : Mirrors Eq (view.narrow predicate) (other.narrow predicate) := by
  rw [narrow_eq, narrow_eq]
  refine (ht.mirrors_search hi ho predicate).bind ?_
  rintro bits _ rfl
  have hwiden : view.widen bits = other.widen bits := by
    rw [widen, widen, ht.mask, (ht.columns hi).rowCount]
  rw [hwiden]
  refine (mirrors_settle [] (related_of_eq fun _ _ => rfl)).bind ?_
  rintro wide _ rfl
  exact mirrors_record _ _ (mirrors_pure rfl)

theorem Twins.mirrors_copies (ht : view.Twins other) (hi : view.Invariant) (ho : other.Invariant) :
    Mirrors Table.Matches (view.columnNames.foldlM view.copyColumn .empty)
      (other.columnNames.foldlM other.copyColumn .empty) := by
  rw [ht.columnNames hi]
  refine Mirrors.foldlM ?_ .nil
  intro table table' htable name _
  refine (ht.mirrors_resolve hi ho name).bind ?_
  intro column column' hm
  exact mirrors_settle [] (((htable.addColumn name hm).mapError _).mapError _)

/-- Twin views with one mask are twins again. -/
theorem Twins.withMask (ht : view.Twins other) (mask : Option Mask) :
    Twins { view with mask } { other with mask } :=
  { ht with mask := rfl }

/-- **Placeholders do not show.**  Of two twin views, each answers a request for a column as the
other does, cell for cell, narrows to the same rows and copies the same cells, or fails with the
same error; and a predicate selects the same rows of their tables. -/
theorem Reachable.placeholders_hidden (h : view.Reachable) (ho : other.Reachable)
    (ht : view.Twins other) :
    (∀ name, Related Column.SameCells (view.evaluate name).outcome (other.evaluate name).outcome) ∧
      (∀ predicate, Related
        (fun narrowed narrowed' => narrowed.mask = narrowed'.mask ∧ narrowed.Twins narrowed')
        (view.filter predicate).outcome (other.filter predicate).outcome) ∧
      (∀ predicate, view.table.select predicate = other.table.select predicate) ∧
      Related Table.SameCells view.extract.outcome other.extract.outcome := by
  have hi := h.invariant
  have hi' := ho.invariant
  refine ⟨?_, ?_, ?_, ?_⟩
  · intro name
    exact (ht.mirrors_resolve hi hi' name).run.mono fun _ _ hm => hm.same
  · intro predicate
    have hcontains : view.contains = other.contains := by
      funext name
      rw [Bool.eq_iff_iff, hi.contains_iff, hi'.contains_iff, ht.columnNames hi]
    rw [View.filter, View.filter, hcontains]
    split
    · exact .error _
    · refine (ht.mirrors_narrow hi hi' predicate).run.map ?_
      rintro mask _ rfl
      exact ⟨rfl, ht.withMask (some mask)⟩
  · intro predicate
    exact (ht.columns hi).select_eq predicate
  · exact (ht.mirrors_copies hi hi').run.mono fun _ _ hm => hm.sameCells

end Twins

/-! ### Texts with a null among them -/

/-- Two texts and a null between them, behind which another text stands. -/
def veiledTexts (hidden : String) : Column :=
  ⟨.string, #["ab", hidden, "dé"], some (.ofList [true, false, true])⟩

/-- The view of these texts and their capitals. -/
def veiled (hidden : String) : View :=
  insertVirtual
    { ofTable ⟨[("text", veiledTexts hidden)]⟩ with
      functions := (Registry.empty.registerAll TextFunction.named).1 }
    ⟨"capitals", "str_upper", ["text"]⟩

theorem wellFormed_veiledTexts (hidden : String) : (veiledTexts hidden).WellFormed := by
  intro bits hb
  cases hb
  exact ⟨Bits.wellFormed_ofList _, rfl, by decide +kernel⟩

theorem values_veiledTexts (hidden : String) :
    (veiledTexts hidden).values = [.string "ab", .null, .string "dé"] := by
  show [(veiledTexts hidden).cell 0, (veiledTexts hidden).cell 1, (veiledTexts hidden).cell 2] = _
  rfl

theorem reachable_veiled (hidden : String) : (veiled hidden).Reachable := by
  have hbuilt : Table.Built ⟨[("text", veiledTexts hidden)]⟩ :=
    .addColumn .empty (Column.built_iff.mpr (wellFormed_veiledTexts hidden)) rfl
  have htexts := (Reachable.ofTable hbuilt).after
    (show Operation.registerTextFunctions.Sound from trivial)
  have hcontains : ∀ name, contains { ofTable ⟨[("text", veiledTexts hidden)]⟩ with
      functions := (Registry.empty.registerAll TextFunction.named).1 } name = (name == "text") :=
    contains_of_names rfl rfl
  refine htexts.insertVirtual ?_ ?_ ?_
  · exact hcontains "capitals"
  · rfl
  · intro source hs
    obtain rfl := List.mem_singleton.mp hs
    exact hcontains "text"

theorem twins_veiled (hidden other : String) : (veiled hidden).Twins (veiled other) where
  table := .cons ⟨rfl, rfl, rfl, by rw [values_veiledTexts, values_veiledTexts]⟩ .nil
  mask := rfl
  virtuals := rfl
  maxDepth := rfl
  functions := by
    intro column hc
    obtain rfl := List.mem_singleton.mp hc
    exact ⟨TextFunction.upper.call, rfl, rfl, .text .upper rfl⟩

/-- What stands behind the null is written in capitals as well, and still it does not show. -/
theorem placeholders_veiled :
    (veiled "secret").Reachable ∧ (veiled "").Reachable ∧ (veiled "secret").Twins (veiled "") ∧
      ∃ left right, ((veiled "secret").evaluate "capitals").outcome = .ok left ∧
        ((veiled "").evaluate "capitals").outcome = .ok right ∧
        left.strings? = some #["AB", "SECRET", "DÉ"] ∧ right.strings? = some #["AB", "", "DÉ"] ∧
        left.SameCells right := by
  have hl := reachable_veiled "secret"
  have hr := reachable_veiled ""
  have ht := twins_veiled "secret" ""
  obtain ⟨left, hleft, hslots⟩ := Outcome.eq_ok_of_map_toOption
    (show ((veiled "secret").meaning "capitals").toOption.map (·.strings?) =
      some (some #["AB", "SECRET", "DÉ"]) by decide +kernel)
  obtain ⟨right, hright, hslots'⟩ := Outcome.eq_ok_of_map_toOption
    (show ((veiled "").meaning "capitals").toOption.map (·.strings?) =
      some (some #["AB", "", "DÉ"]) by decide +kernel)
  have hleft' := (hl.invariant.evaluate_of_room (by decide) "capitals").trans hleft
  have hright' := (hr.invariant.evaluate_of_room (by decide) "capitals").trans hright
  have hsame := (hl.placeholders_hidden hr ht).1 "capitals"
  rw [hleft', hright'] at hsame
  cases hsame with
  | ok hs => exact ⟨hl, hr, ht, left, right, hleft', hright', hslots, hslots', hs⟩

end RowSieve.View

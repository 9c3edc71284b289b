import Mathlib.Data.List.Forall2
import RowSieve.Outcome

/-!
# Reasoning about outcomes

A computation that ends with a value went through a value at every step, and one that ends early
did so at a first step.  `bind_eq_ok` and `bind_eq_error` take a sequence of steps apart, `mapM_eq_ok`
and `mapM_eq_error` a run over a list.
-/

namespace RowSieve.Outcome

variable {ε δ α β : Type}

theorem bind_eq_ok {x : Except ε α} {f : α → Except ε β} {b : β} :
    (x >>= f) = .ok b ↔ ∃ a, x = .ok a ∧ f a = .ok b := by
  cases x <;> simp [bind, Except.bind]

theorem map_eq_ok {x : Except ε α} {f : α → β} {b : β} :
    (f <$> x) = .ok b ↔ ∃ a, x = .ok a ∧ f a = b := by
  cases x <;> simp [Functor.map, Except.map]

theorem eq_ok_of_map_toOption {x : Except ε α} {f : α → β} {b : β}
    (h : x.toOption.map f = some b) : ∃ a, x = .ok a ∧ f a = b := by
  cases x with
  | ok a => exact ⟨a, rfl, Option.some.inj h⟩
  | error cause => cases h

/-- A change of the error leaves values alone. -/
theorem exceptMapError_eq_ok {f : ε → δ} {x : Except ε α} {a : α} :
    x.mapError f = .ok a ↔ x = .ok a := by
  cases x <;> simp [Except.mapError]

theorem ofFaulty_eq_ok {x : Except Fault α} {a : α} :
    (ofFaulty x : Outcome ε α) = .ok a ↔ x = .ok a :=
  exceptMapError_eq_ok

theorem ofExcept_eq_ok {x : Except ε α} {a : α} : ofExcept x = .ok a ↔ x = .ok a :=
  exceptMapError_eq_ok

theorem mapError_eq_ok {f : ε → δ} {x : Outcome ε α} {a : α} :
    mapError f x = .ok a ↔ x = .ok a :=
  exceptMapError_eq_ok

/-- A run over a list succeeds when each step does. -/
theorem mapM_eq_ok {f : α → Except ε β} {xs : List α} {ys : List β} :
    xs.mapM f = .ok ys ↔ List.Forall₂ (fun x y => f x = .ok y) xs ys := by
  induction xs generalizing ys with
  | nil => cases ys <;> simp [pure, Except.pure]
  | cons x xs ih =>
      rw [List.mapM_cons, bind_eq_ok]
      cases ys with
      | nil => simp [bind_eq_ok, pure, Except.pure]
      | cons y ys =>
          simp only [bind_eq_ok, ih, pure, Except.pure, Except.ok.injEq, List.cons.injEq,
            List.forall₂_cons]
          constructor
          · rintro ⟨_, hx, _, hxs, rfl, rfl⟩
            exact ⟨hx, hxs⟩
          · rintro ⟨hx, hxs⟩
            exact ⟨y, hx, ys, hxs, rfl, rfl⟩

theorem exists_of_mem_mapM {f : α → Except ε β} {xs : List α} {ys : List β} {y : β}
    (h : xs.mapM f = .ok ys) (hy : y ∈ ys) : ∃ x ∈ xs, f x = .ok y := by
  induction mapM_eq_ok.mp h with
  | nil => cases hy
  | @cons x _ xs _ hx hxs ih =>
      rcases List.mem_cons.mp hy with rfl | hy
      · exact ⟨x, List.mem_cons_self, hx⟩
      · obtain ⟨z, hz, he⟩ := ih (mapM_eq_ok.mpr hxs) hy
        exact ⟨z, List.mem_cons_of_mem x hz, he⟩

theorem exists_of_mapM {f : α → Except ε β} {xs : List α} {ys : List β} {x : α}
    (h : xs.mapM f = .ok ys) (hx : x ∈ xs) : ∃ y, f x = .ok y := by
  induction mapM_eq_ok.mp h with
  | nil => cases hx
  | @cons z y xs _ hz hxs ih =>
      rcases List.mem_cons.mp hx with rfl | hx
      · exact ⟨y, hz⟩
      · exact ih (mapM_eq_ok.mpr hxs) hx

/-- A run that gives one value has one step. -/
theorem exists_of_mapM_singleton {f : α → Except ε β} {xs : List α} {y : β}
    (h : xs.mapM f = .ok [y]) : ∃ x, xs = [x] ∧ f x = .ok y := by
  rw [mapM_eq_ok] at h
  obtain ⟨x, rest, hx, hrest, rfl⟩ := List.forall₂_cons_right_iff.mp h
  cases hrest
  exact ⟨x, rfl, hx⟩

/-- Two runs over one list whose values look alike. -/
theorem map_eq_of_mapM {γ η : Type} {f : α → Except ε β} {g : α → Except δ γ} {p : β → η}
    {q : γ → η} {xs : List α} {ys : List β} {zs : List γ} (hf : xs.mapM f = .ok ys)
    (hg : xs.mapM g = .ok zs)
    (h : ∀ x ∈ xs, ∀ y z, f x = .ok y → g x = .ok z → p y = q z) : ys.map p = zs.map q := by
  induction mapM_eq_ok.mp hf generalizing zs with
  | nil =>
      cases mapM_eq_ok.mp hg
      rfl
  | @cons x y xs ys hx hxs ih =>
      cases mapM_eq_ok.mp hg with
      | @cons _ z _ zs hz hzs =>
          rw [List.map_cons, List.map_cons, h x List.mem_cons_self y z hx hz,
            ih (mapM_eq_ok.mpr hxs) (mapM_eq_ok.mpr hzs) fun x hx =>
              h x (List.mem_cons_of_mem _ hx)]

/-- A run over a list of known values gives these. -/
theorem mapM_eq_map {f : α → Except ε β} {g : α → β} {xs : List α}
    (h : ∀ x ∈ xs, f x = .ok (g x)) : xs.mapM f = .ok (xs.map g) := by
  rw [mapM_eq_ok, List.forall₂_map_right_iff, List.forall₂_same]
  exact h

theorem mapM_congr {m : Type → Type} [Monad m] [LawfulMonad m] {f g : α → m β} {xs : List α}
    (h : ∀ x ∈ xs, f x = g x) : xs.mapM f = xs.mapM g := by
  induction xs with
  | nil => rfl
  | cons x xs ih =>
      rw [List.mapM_cons, List.mapM_cons, h x List.mem_cons_self,
        ih fun y hy => h y (List.mem_cons_of_mem x hy)]

/-! ### Early ends -/

theorem bind_eq_error {x : Except ε α} {f : α → Except ε β} {e : ε} :
    (x >>= f) = .error e ↔ x = .error e ∨ ∃ a, x = .ok a ∧ f a = .error e := by
  cases x <;> simp [bind, Except.bind]

theorem map_eq_error {x : Except ε α} {f : α → β} {e : ε} :
    (f <$> x) = .error e ↔ x = .error e := by
  cases x <;> simp [Functor.map, Except.map]

theorem ofFaulty_ne_error {x : Except Fault α} {cause : ε} :
    (ofFaulty x : Outcome ε α) ≠ .error (.error cause) := by
  cases x <;> simp [ofFaulty, Except.mapError]

theorem exceptMapError_eq_error {f : ε → δ} {x : Except ε α} {cause : δ} :
    x.mapError f = .error cause ↔ ∃ e, x = .error e ∧ f e = cause := by
  cases x <;> simp [Except.mapError]

theorem ofExcept_eq_error {x : Except ε α} {cause : ε} :
    ofExcept x = .error (.error cause) ↔ x = .error cause := by
  cases x <;> simp [ofExcept, Except.mapError]

theorem mapError_eq_error {f : ε → δ} {x : Outcome ε α} {cause : δ} :
    mapError f x = .error (.error cause) ↔ ∃ e, x = .error (.error e) ∧ f e = cause := by
  rcases x with (e | broken) | a <;> simp [mapError, Except.mapError, Abort.map]

/-- A run over a list ends early at the first step that does. -/
theorem mapM_eq_error_iff {f : α → Except ε β} {xs : List α} {e : ε} :
    xs.mapM f = .error e ↔ ∃ before x after, xs = before ++ x :: after ∧
      (∀ y ∈ before, ∃ b, f y = .ok b) ∧ f x = .error e := by
  constructor
  · intro h
    induction xs with
    | nil => cases h
    | cons x xs ih =>
        rw [List.mapM_cons] at h
        rcases bind_eq_error.mp h with hx | ⟨b, hb, h⟩
        · exact ⟨[], x, xs, rfl, by simp, hx⟩
        · rcases bind_eq_error.mp h with hxs | ⟨bs, -, h⟩
          · obtain ⟨before, y, after, rfl, hbefore, hy⟩ := ih hxs
            exact ⟨x :: before, y, after, rfl, List.forall_mem_cons.mpr ⟨⟨b, hb⟩, hbefore⟩, hy⟩
          · cases h
  · rintro ⟨before, x, after, rfl, hbefore, hx⟩
    induction before with
    | nil =>
        rw [List.nil_append, List.mapM_cons, hx]
        rfl
    | cons y before ih =>
        obtain ⟨⟨b, hb⟩, hrest⟩ := List.forall_mem_cons.mp hbefore
        rw [List.cons_append, List.mapM_cons, hb]
        exact bind_eq_error.mpr (.inr ⟨b, rfl, bind_eq_error.mpr (.inl (ih hrest))⟩)

/-- A run over a list that ends early does so at one of its steps. -/
theorem mapM_eq_error {f : α → Except ε β} {xs : List α} {e : ε}
    (h : xs.mapM f = .error e) : ∃ x ∈ xs, f x = .error e := by
  obtain ⟨before, x, after, rfl, -, hx⟩ := mapM_eq_error_iff.mp h
  exact ⟨x, by simp, hx⟩

/-- A run over a list gives values if each step does. -/
theorem exists_mapM {f : α → Except ε β} {xs : List α} (h : ∀ x ∈ xs, ∃ y, f x = .ok y) :
    ∃ ys, xs.mapM f = .ok ys := by
  cases hm : xs.mapM f with
  | ok ys => exact ⟨ys, rfl⟩
  | error e =>
      obtain ⟨x, hx, he⟩ := mapM_eq_error hm
      obtain ⟨y, hy⟩ := h x hx
      cases hy.symm.trans he

theorem foldlM_eq_error {f : β → α → Except ε β} {xs : List α} {start : β} {e : ε}
    (h : xs.foldlM f start = .error e) : ∃ between, ∃ x ∈ xs, f between x = .error e := by
  induction xs generalizing start with
  | nil => cases h
  | cons x xs ih =>
      rw [List.foldlM_cons, bind_eq_error] at h
      rcases h with hx | ⟨next, -, h⟩
      · exact ⟨start, x, List.mem_cons_self, hx⟩
      · obtain ⟨between, y, hy, he⟩ := ih h
        exact ⟨between, y, List.mem_cons_of_mem x hy, he⟩

/-! ### Without a fault -/

/-- The computation ends with a value or in an error, not in a fault. -/
def Calm (x : Outcome ε α) : Prop :=
  ∀ broken, x ≠ .error (.fault broken)

theorem calm_ok (a : α) : Calm (.ok a : Outcome ε α) :=
  fun _ => nofun

theorem calm_error (cause : ε) : Calm (.error (.error cause) : Outcome ε α) :=
  fun _ => nofun

theorem calm_of_eq_ok {x : Outcome ε α} (h : ∃ a, x = .ok a) : Calm x := by
  obtain ⟨a, rfl⟩ := h
  exact calm_ok a

theorem calm_ofExcept (x : Except ε α) : Calm (ofExcept x) := by
  cases x with
  | ok a => exact calm_ok a
  | error cause => exact calm_error cause

theorem Calm.mapError {x : Outcome ε α} (h : Calm x) (f : ε → δ) : Calm (Outcome.mapError f x) := by
  rcases x with (cause | broken) | a
  · exact calm_error (f cause)
  · exact absurd rfl (h broken)
  · exact calm_ok a

theorem Calm.map {x : Outcome ε α} (h : Calm x) (f : α → β) : Calm (f <$> x) :=
  fun broken hx => h broken (map_eq_error.mp hx)

theorem Calm.bind {x : Outcome ε α} {f : α → Outcome ε β} (h : Calm x)
    (hn : ∀ a, x = .ok a → Calm (f a)) : Calm (x >>= f) := by
  intro broken hx
  rcases bind_eq_error.mp hx with hx | ⟨a, ha, hx⟩
  · exact h broken hx
  · exact hn a ha broken hx

theorem calm_mapM {f : α → Outcome ε β} {xs : List α} (h : ∀ x ∈ xs, Calm (f x)) :
    Calm (xs.mapM f) := by
  intro broken hx
  obtain ⟨x, hx, he⟩ := mapM_eq_error hx
  exact h x hx broken he

theorem calm_foldlM {f : β → α → Outcome ε β} {xs : List α}
    (h : ∀ between, ∀ x ∈ xs, Calm (f between x)) (start : β) : Calm (xs.foldlM f start) := by
  intro broken hx
  obtain ⟨between, x, hx, he⟩ := foldlM_eq_error hx
  exact h between x hx broken he

/-! ### Ending alike -/

/-- Both computations give a value, or both end in one error, which the second sees as another. -/
inductive EndAlike (wrap : ε → δ) : Outcome ε α → Outcome δ β → Prop where
  | ok (a : α) (b : β) : EndAlike wrap (.ok a) (.ok b)
  | error (cause : ε) : EndAlike wrap (.error (.error cause)) (.error (.error (wrap cause)))

theorem EndAlike.of_eq_ok {wrap : ε → δ} {x : Outcome ε α} {y : Outcome δ β} {a : α} {b : β}
    (hx : x = .ok a) (hy : y = .ok b) : EndAlike wrap x y :=
  hx ▸ hy ▸ .ok a b

theorem EndAlike.eq_ok_or_eq_error {wrap : ε → δ} {x : Outcome ε α} {y : Outcome δ β}
    (h : EndAlike wrap x y) : (∃ a b, x = .ok a ∧ y = .ok b) ∨
      ∃ cause, x = .error (.error cause) ∧ y = .error (.error (wrap cause)) := by
  cases h with
  | ok a b => exact .inl ⟨a, b, rfl, rfl⟩
  | error cause => exact .inr ⟨cause, rfl, rfl⟩

/-- Computations that end alike and go on alike. -/
theorem EndAlike.bind {γ η : Type} {wrap : ε → δ} {x : Outcome ε α} {y : Outcome δ β}
    {f : α → Outcome ε γ} {g : β → Outcome δ η} (h : EndAlike wrap x y)
    (hn : ∀ a b, x = .ok a → y = .ok b → EndAlike wrap (f a) (g b)) :
    EndAlike wrap (x >>= f) (y >>= g) := by
  cases h with
  | ok a b => exact hn a b rfl rfl
  | error cause => exact .error cause

theorem EndAlike.mapError {wrap : ε → δ} {x : Outcome ε α} {y : Outcome ε β}
    (h : EndAlike id x y) : EndAlike wrap x (Outcome.mapError wrap y) := by
  cases h with
  | ok a b => exact .ok a b
  | error cause => exact .error cause

theorem EndAlike.exists_ok_iff {wrap : ε → δ} {x : Outcome ε α} {y : Outcome δ β}
    (h : EndAlike wrap x y) : (∃ a, x = .ok a) ↔ ∃ b, y = .ok b := by
  cases h with
  | ok a b => exact ⟨fun _ => ⟨b, rfl⟩, fun _ => ⟨a, rfl⟩⟩
  | error cause => simp

/-! ### Ending related -/

/-- Both computations give values that are related, or both end early for one reason. -/
inductive Related (r : α → β → Prop) : Except ε α → Except ε β → Prop where
  | ok {a : α} {b : β} (h : r a b) : Related r (.ok a) (.ok b)
  | error (cause : ε) : Related r (.error cause) (.error cause)

section Related

variable {γ η : Type} {r : α → β → Prop} {x : Except ε α} {y : Except ε β}

theorem related_of_eq {r : α → α → Prop} {x : Except ε α} (h : ∀ a, x = .ok a → r a a) :
    Related r x x := by
  cases x with
  | ok a => exact .ok (h a rfl)
  | error cause => exact .error cause

theorem Related.mono {s : α → β → Prop} (h : Related r x y) (hs : ∀ a b, r a b → s a b) :
    Related s x y := by
  cases h with
  | ok h => exact .ok (hs _ _ h)
  | error cause => exact .error cause

theorem Related.bind {s : γ → η → Prop} {f : α → Except ε γ} {g : β → Except ε η}
    (h : Related r x y) (hn : ∀ a b, r a b → Related s (f a) (g b)) :
    Related s (x >>= f) (y >>= g) := by
  cases h with
  | ok h => exact hn _ _ h
  | error cause => exact .error cause

theorem Related.map {s : γ → η → Prop} {f : α → γ} {g : β → η} (h : Related r x y)
    (hn : ∀ a b, r a b → s (f a) (g b)) : Related s (f <$> x) (g <$> y) := by
  cases h with
  | ok h => exact .ok (hn _ _ h)
  | error cause => exact .error cause

theorem Related.mapError (h : Related r x y) (f : ε → δ) :
    Related r (x.mapError f) (y.mapError f) := by
  cases h with
  | ok h => exact .ok h
  | error cause => exact .error (f cause)

end Related

end RowSieve.Outcome

namespace RowSieve

/-! ### Changing a state -/

section State

variable {ε σ α β : Type} {action : EStateM ε σ α} {next : α → EStateM ε σ β} {before after : σ}

theorem bind_run {value : α} (h : action before = .ok value after) :
    (action >>= next) before = next value after := by
  show EStateM.bind action next before = _
  rw [EStateM.bind, h]

theorem bind_run_error {cause : ε} (h : action before = .error cause after) :
    (action >>= next) before = .error cause after := by
  show EStateM.bind action next before = _
  rw [EStateM.bind, h]

theorem bind_run_eq_ok {value : β} :
    (action >>= next) before = .ok value after ↔
      ∃ found middle, action before = .ok found middle ∧ next found middle = .ok value after := by
  cases h : action before with
  | ok found middle => simp [bind_run h]
  | error cause middle => simp [bind_run_error h]

theorem bind_run_eq_error {cause : ε} :
    (action >>= next) before = .error cause after ↔
      action before = .error cause after ∨
        ∃ found middle, action before = .ok found middle ∧
          next found middle = .error cause after := by
  cases h : action before with
  | ok found middle => simp [bind_run h]
  | error broken middle => simp [bind_run_error h]

end State

end RowSieve

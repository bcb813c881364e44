/-
  CourseCharts — computations that pass all their checks.

  What a computation returns is known from what its steps return.

  * `bind_eq_ok` and `pure_eq_ok` take a computation apart, `mapM_eq_ok` and
    `forM_eq_ok` one over a list;
  * `Quantity.require_eq_ok`: a check passes if the numbers meet the
    requirement.
-/
import CourseCharts.Response
import Mathlib.Data.List.Forall2

namespace CourseCharts

section
variable {ε α β γ : Type}

@[simp] theorem bind_eq_ok {x : Except ε α} {f : α → Except ε β} {b : β} :
    (x >>= f) = .ok b ↔ ∃ a, x = .ok a ∧ f a = .ok b := by
  cases x <;> simp [bind, Except.bind]

@[simp] theorem pure_eq_ok {a b : α} : (pure a : Except ε α) = .ok b ↔ a = b := by
  simp [pure, Except.pure]

theorem bind_eq_error {x : Except ε α} {f : α → Except ε β} {e : ε} :
    (x >>= f) = .error e ↔ x = .error e ∨ ∃ a, x = .ok a ∧ f a = .error e := by
  cases x <;> simp [bind, Except.bind]

@[simp] theorem isOk_map (x : Except ε α) (f : α → β) : (x.map f).isOk = x.isOk := by
  cases x <;> rfl

@[simp] theorem map_eq_error {x : Except ε α} {f : α → β} {e : ε} :
    x.map f = .error e ↔ x = .error e := by
  cases x <;> simp [Except.map]

theorem isOk_iff {x : Except ε α} : x.isOk = true ↔ ∃ a, x = .ok a := by
  cases x <;> simp [Except.isOk, Except.toBool]

/-- A list of results, element by element. -/
theorem mapM_eq_ok {f : α → Except ε β} {xs : List α} {ys : List β} :
    xs.mapM f = .ok ys ↔ List.Forall₂ (fun x y => f x = .ok y) xs ys := by
  induction xs generalizing ys with
  | nil =>
    rw [List.mapM_nil, pure_eq_ok, List.forall₂_nil_left_iff]
    exact eq_comm
  | cons x xs ih =>
    simp only [List.mapM_cons, bind_eq_ok, pure_eq_ok, ih, List.forall₂_cons_left_iff]
    constructor
    · rintro ⟨y, hy, ys, hys, rfl⟩
      exact ⟨y, ys, hy, hys, rfl⟩
    · rintro ⟨y, ys, hy, hys, rfl⟩
      exact ⟨y, hy, ys, hys, rfl⟩

theorem mapM_length {f : α → Except ε β} {xs : List α} {ys : List β}
    (h : xs.mapM f = .ok ys) : ys.length = xs.length :=
  (mapM_eq_ok.1 h).length_eq.symm

/-- A list where each result is computed after a check. -/
theorem mapM_eq_ok_map {f : α → Except ε β} {P : α → Prop} {g : α → β}
    (h : ∀ x y, f x = .ok y ↔ P x ∧ y = g x) {xs : List α} {ys : List β} :
    xs.mapM f = .ok ys ↔ (∀ x ∈ xs, P x) ∧ ys = xs.map g := by
  rw [mapM_eq_ok]
  induction xs generalizing ys with
  | nil => simp
  | cons x xs ih =>
    simp only [List.forall₂_cons_left_iff, ih, List.forall_mem_cons, List.map_cons]
    simp only [h]
    constructor
    · rintro ⟨y, ys, ⟨hx, rfl⟩, ⟨hxs, rfl⟩, rfl⟩
      exact ⟨⟨hx, hxs⟩, rfl⟩
    · rintro ⟨⟨hx, hxs⟩, rfl⟩
      exact ⟨_, _, ⟨hx, rfl⟩, ⟨hxs, rfl⟩, rfl⟩

/-- What every result has. -/
theorem forall_of_mapM {f : α → Except ε β} {P : β → Prop} (hf : ∀ x y, f x = .ok y → P y)
    {xs : List α} {ys : List β} (h : xs.mapM f = .ok ys) : ∀ y ∈ ys, P y := by
  rw [mapM_eq_ok] at h
  induction h with
  | nil => simp
  | cons hxy _ ih => exact List.forall_mem_cons.2 ⟨hf _ _ hxy, ih⟩

/-- What the results of the elements have. -/
theorem forall_mem_of_mapM {f : α → Except ε β} {P : β → Prop} {xs : List α} {ys : List β}
    (hf : ∀ x ∈ xs, ∀ y, f x = .ok y → P y) (h : xs.mapM f = .ok ys) : ∀ y ∈ ys, P y := by
  rw [mapM_eq_ok] at h
  induction h with
  | nil => simp
  | cons hxy _ ih =>
    rw [List.forall_mem_cons] at hf
    exact List.forall_mem_cons.2 ⟨hf.1 _ hxy, ih hf.2⟩

/-- What the results of the same elements have in common. -/
theorem forall₂_of_mapM {f : α → Except ε β} {g : α → Except ε γ} {P : β → γ → Prop}
    (h : ∀ x y z, f x = .ok y → g x = .ok z → P y z) {xs : List α} {ys : List β} {zs : List γ}
    (hf : xs.mapM f = .ok ys) (hg : xs.mapM g = .ok zs) : List.Forall₂ P ys zs := by
  rw [mapM_eq_ok] at hf hg
  induction hf generalizing zs with
  | nil =>
    cases hg
    exact .nil
  | cons hxy _ ih =>
    cases hg with
    | cons hxz hg => exact .cons (h _ _ _ hxy hxz) (ih hg)

/-- A check of every element. -/
theorem forM_eq_ok {f : α → Except ε Unit} {xs : List α} {u : Unit} :
    xs.forM f = .ok u ↔ ∀ x ∈ xs, f x = .ok () := by
  induction xs with
  | nil => simp [List.forM, pure, Except.pure]
  | cons x xs ih =>
    rw [List.forall_mem_cons, ← ih]
    exact bind_eq_ok.trans ⟨fun ⟨_, hx, hxs⟩ => ⟨hx, hxs⟩, fun ⟨hx, hxs⟩ => ⟨(), hx, hxs⟩⟩

/-- The error is that of the first element that has one. -/
def FirstError (f : α → Except ε β) (xs : List α) (e : ε) : Prop :=
  ∃ before x after, xs = before ++ x :: after ∧ (∀ y ∈ before, ∃ b, f y = .ok b) ∧ f x = .error e

theorem firstError_cons {f : α → Except ε β} {x : α} {xs : List α} {e : ε} :
    FirstError f (x :: xs) e ↔ f x = .error e ∨ (∃ b, f x = .ok b) ∧ FirstError f xs e := by
  constructor
  · rintro ⟨before, y, after, hsplit, hbefore, hy⟩
    cases before with
    | nil =>
      obtain ⟨rfl, rfl⟩ := List.cons_eq_cons.1 hsplit
      exact .inl hy
    | cons z before =>
      obtain ⟨rfl, rfl⟩ := List.cons_eq_cons.1 hsplit
      rw [List.forall_mem_cons] at hbefore
      exact .inr ⟨hbefore.1, before, y, after, rfl, hbefore.2, hy⟩
  · rintro (hx | ⟨hx, before, y, after, rfl, hbefore, hy⟩)
    · exact ⟨[], x, xs, rfl, List.forall_mem_nil _, hx⟩
    · exact ⟨x :: before, y, after, rfl, List.forall_mem_cons.2 ⟨hx, hbefore⟩, hy⟩

theorem mapM_eq_error {f : α → Except ε β} {xs : List α} {e : ε} :
    xs.mapM f = .error e ↔ FirstError f xs e := by
  induction xs with
  | nil => simp [FirstError, pure, Except.pure]
  | cons x xs ih =>
    rw [firstError_cons, ← ih, List.mapM_cons, bind_eq_error]
    simp only [bind_eq_error]
    simp [pure, Except.pure]

theorem forM_eq_firstError {f : α → Except ε Unit} {xs : List α} {e : ε} :
    xs.forM f = .error e ↔ FirstError f xs e := by
  induction xs with
  | nil => simp [FirstError, List.forM, pure, Except.pure]
  | cons x xs ih =>
    rw [firstError_cons, ← ih]
    exact bind_eq_error.trans (or_congr_right ⟨fun ⟨u, hu, h⟩ => ⟨⟨u, hu⟩, h⟩,
      fun ⟨⟨u, hu⟩, h⟩ => ⟨u, hu, h⟩⟩)

/-- A check that can only fail in one way, and does. -/
theorem forM_eq_error {f : α → Except ε Unit} {xs : List α} {e : ε} {x : α}
    (hf : ∀ x ∈ xs, f x = .ok () ∨ f x = .error e) (hx : x ∈ xs) (h : f x = .error e) :
    xs.forM f = .error e := by
  induction xs with
  | nil => cases hx
  | cons y ys ih =>
    rw [List.forall_mem_cons] at hf
    have hcons : (y :: ys).forM f = f y >>= fun _ => ys.forM f := rfl
    rcases hf.1 with hy | hy
    · rcases List.mem_cons.1 hx with rfl | hx
      · rw [hy] at h
        cases h
      · rw [hcons, hy]
        exact ih hf.2 hx
    · rw [hcons, hy]
      rfl

/-- If every element has a result, so has the list. -/
theorem mapM_isOk {f : α → Except ε β} {xs : List α} (h : ∀ x ∈ xs, ∃ y, f x = .ok y) :
    ∃ ys, xs.mapM f = .ok ys := by
  induction xs with
  | nil => exact ⟨[], rfl⟩
  | cons x xs ih =>
    obtain ⟨y, hy⟩ := h x List.mem_cons_self
    obtain ⟨ys, hys⟩ := ih fun x' hx' => h x' (List.mem_cons_of_mem x hx')
    exact ⟨y :: ys, by simp [hy, hys]⟩

end

@[simp] theorem Flaw.unless_eq_ok {flaw : Flaw} {holds : Bool} {u : Unit} :
    flaw.unless holds = .ok u ↔ holds = true := by
  cases holds <;> simp [Flaw.unless]

@[simp] theorem Flaw.orElse_eq_ok {β : Type} {flaw : Flaw} {o : Option β} {b : β} :
    flaw.orElse o = .ok b ↔ o = some b := by
  cases o <;> simp [Flaw.orElse]

@[simp] theorem Flaw.orElse_eq_error {β : Type} {flaw : Flaw} {o : Option β} {e : ChartError} :
    flaw.orElse o = .error e ↔ o = none ∧ e = .invalidData flaw := by
  cases o <;> simp [Flaw.orElse, eq_comm]

variable {α : Type} [Scalar α]

/-- A check passes exactly if all the numbers meet the requirement. -/
@[simp] theorem Quantity.require_eq_ok {q : Quantity} {r : Requirement} {xs : List α}
    {u : Unit} : q.require r xs = .ok u ↔ ∀ x ∈ xs, r.holds x = true := by
  rw [Quantity.require, Flaw.unless_eq_ok, List.all_eq_true]

/-- A check that fails names what it checks and what it asks for. -/
theorem Quantity.require_eq_error {q : Quantity} {r : Requirement} {xs : List α}
    (h : ¬ ∀ x ∈ xs, r.holds x = true) : q.require r xs = .error (.invalidData (.unmet q r)) := by
  rw [← List.all_eq_true, Bool.not_eq_true] at h
  rw [Quantity.require, h]
  rfl

/-- Every requirement asks for finite numbers. -/
theorem Requirement.finite_of_holds {r : Requirement} {x : α} (h : r.holds x = true) :
    Scalar.isFinite x = true := by
  rw [Requirement.holds.eq_def, Bool.and_eq_true] at h
  exact h.1

@[simp] theorem Requirement.finite_holds {x : α} :
    Requirement.finite.holds x = Scalar.isFinite x := by
  simp [Requirement.holds]

end CourseCharts

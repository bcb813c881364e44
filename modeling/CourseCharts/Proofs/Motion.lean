/-
  CourseCharts — running animations.

  * `Transition.Timed` says that the clock and the duration are numbers; they
    are so from the start, whatever times the clock is moved to;
  * `Transition.Timed.elapsed_lt`: an animation that is not finished has time
    left;
  * `length_blend`: between two lists, the list has the length of the target;
  * `Transition.forall_mem_current`: on its way, a list keeps what the shapes
    between two shapes have in common with them; `blend_mem` and
    `Easing.apply_mem` say so of the numbers of an interval;
  * `Transition.atStart`: in exact arithmetic an animation of some duration
    starts where its origin is;
  * `blend_same` and `blend_right_inj`: two ways with one end meet if they
    start at one place, and in exact arithmetic only then.
-/
import CourseCharts.Motion.Transition
import CourseCharts.Proofs.Checks
import CourseCharts.Proofs.Number.Exact
import CourseCharts.Proofs.Number.Lawful
import Mathlib.Tactic.Ring

namespace CourseCharts

namespace Transition

variable {τ α : Type} [Scalar α]

/-! ## The clock -/

/-- The clock and the duration are numbers. -/
structure Timed (a : Transition τ α) : Prop where
  elapsed : Scalar.isFinite a.elapsed = true
  duration : Requirement.nonnegative.holds a.duration = true

/-- An animation that can be made starts at time zero. -/
theorem make?_eq_ok {origin target : τ} {duration : α} {easing : Easing}
    {a : Transition τ α} :
    make? origin target duration easing = .ok a ↔
      Requirement.nonnegative.holds duration = true ∧
        a = ⟨origin, target, duration, easing, 0.0⟩ := by
  simp only [make?, bind_eq_ok, pure_eq_ok, Quantity.require_eq_ok, List.mem_singleton,
    forall_eq, exists_and_left, exists_const]
  exact and_congr_right fun _ => eq_comm

theorem Timed.of_make? [LawfulScalar α] {origin target : τ} {duration : α} {easing : Easing}
    {a : Transition τ α} (h : make? origin target duration easing = .ok a) : a.Timed := by
  obtain ⟨hduration, rfl⟩ := make?_eq_ok.1 h
  exact ⟨LawfulScalar.finite_zero, hduration⟩

@[simp] theorem advance_origin (a : Transition τ α) (time : α) :
    (a.advance time).origin = a.origin := by
  unfold advance
  split <;> rfl

@[simp] theorem advance_target (a : Transition τ α) (time : α) :
    (a.advance time).target = a.target := by
  unfold advance
  split <;> rfl

@[simp] theorem advance_duration (a : Transition τ α) (time : α) :
    (a.advance time).duration = a.duration := by
  unfold advance
  split <;> rfl

@[simp] theorem advance_easing (a : Transition τ α) (time : α) :
    (a.advance time).easing = a.easing := by
  unfold advance
  split <;> rfl

theorem Timed.advance {a : Transition τ α} (h : a.Timed) (time : α) :
    (a.advance time).Timed := by
  refine ⟨?_, by simpa using h.duration⟩
  unfold Transition.advance
  split
  next ht => exact (Bool.and_eq_true_iff.1 ht).1
  next => exact h.elapsed

/-- A time that is no number changes nothing. -/
theorem advance_of_not_finite (a : Transition τ α) {time : α}
    (h : Scalar.isFinite time = false) : a.advance time = a := by
  simp [advance, h]

/-- Nor does the time on the clock. -/
theorem advance_elapsed (a : Transition τ α) : a.advance a.elapsed = a := by
  unfold advance
  split <;> rfl

/-- An animation that is not finished has time left. -/
theorem Timed.elapsed_lt [LawfulScalar α] {a : Transition τ α} (h : a.Timed)
    (hf : a.isFinished = false) : a.elapsed < a.duration :=
  LawfulScalar.lt_of_not_le (Requirement.finite_of_holds h.duration) h.elapsed
    (of_decide_eq_false hf)

/-- An animation with time left is finished at its duration. -/
theorem Timed.finished_advance [LawfulScalar α] {a : Transition τ α} (h : a.Timed)
    (hlt : a.elapsed < a.duration) : (a.advance a.duration).isFinished = true := by
  have hfinite := Requirement.finite_of_holds h.duration
  have he : a.advance a.duration = { a with elapsed := a.duration } := by
    rw [Transition.advance, hfinite, decide_eq_true hlt]
    rfl
  rw [he]
  exact decide_eq_true (Scalar.le_refl hfinite)

theorem unfinished_of_lt [LawfulScalar α] {a : Transition τ α} (h : a.elapsed < a.duration) :
    a.isFinished = false :=
  decide_eq_false (LawfulScalar.not_le_of_lt h)

/-! ## The shape at the clock -/

section
variable [Blend τ α]

theorem current_of_finished {a : Transition τ α} (h : a.isFinished = true) :
    a.current = a.target := if_pos h

theorem current_of_unfinished {a : Transition τ α} (h : a.isFinished = false) :
    a.current = blend a.origin a.target (a.easing.apply (a.elapsed / a.duration)) := by
  rw [current, h]
  rfl

end

end Transition

section
variable {τ α : Type} [Blend τ α]

theorem blend_of_length_eq {as bs : List τ} (h : as.length = bs.length) (t : α) :
    blend as bs t = List.zipWith (fun a b => blend a b t) as bs := if_pos h

theorem blend_of_length_ne {as bs : List τ} (h : as.length ≠ bs.length) (t : α) :
    blend as bs t = bs := if_neg h

theorem length_blend (as bs : List τ) (t : α) : (blend as bs t).length = bs.length := by
  by_cases h : as.length = bs.length
  · rw [blend_of_length_eq h, List.length_zipWith, h, Nat.min_self]
  · rw [blend_of_length_ne h]

/-- On the way from a function of the targets. -/
theorem blend_map (f : τ → τ) (bs : List τ) (t : α) :
    blend (bs.map f) bs t = bs.map fun b => blend (f b) b t := by
  rw [blend_of_length_eq (List.length_map f), List.zipWith_map_left, List.zipWith_self]

theorem getElem?_blend_of_some {as bs : List τ} (h : as.length = bs.length) (t : α) {i : Nat}
    {a b : τ} (ha : as[i]? = some a) (hb : bs[i]? = some b) :
    (blend as bs t)[i]? = some (blend a b t) := by
  rw [blend_of_length_eq h, List.getElem?_zipWith_eq_some]
  exact ⟨a, b, ha, hb, rfl⟩

theorem getElem?_blend {as bs : List τ} (h : as.length = bs.length) {t : α} {i : Nat} {x : τ}
    (hx : (blend as bs t)[i]? = some x) :
    ∃ a b, as[i]? = some a ∧ bs[i]? = some b ∧ x = blend a b t := by
  rw [blend_of_length_eq h, List.getElem?_zipWith_eq_some] at hx
  obtain ⟨a, b, ha, hb, rfl⟩ := hx
  exact ⟨a, b, ha, hb, rfl⟩

end

/-! ## What the way keeps -/

section
variable {τ α : Type} [Blend τ α] {P : τ → Prop} {t : α}

/-- What two shapes have in common, if the shapes between them have it. -/
theorem forall_mem_blend (hP : ∀ a b, P a → P b → P (blend a b t)) {as bs : List τ}
    (has : ∀ a ∈ as, P a) (hbs : ∀ b ∈ bs, P b) : ∀ x ∈ blend as bs t, P x := by
  change ∀ x ∈ if as.length = bs.length then _ else bs, P x
  split
  next =>
    rw [← List.map_uncurry_zip_eq_zipWith, List.forall_mem_map]
    intro ab hab
    exact hP _ _ (has _ (List.of_mem_zip hab).1) (hbs _ (List.of_mem_zip hab).2)
  next => exact hbs

theorem Transition.forall_mem_current [Scalar α] {a : Transition (List τ) α}
    (hP : ∀ x y, P x → P y → P (blend x y (a.easing.apply (a.elapsed / a.duration))))
    (horigin : ∀ x ∈ a.origin, P x) (htarget : ∀ x ∈ a.target, P x) : ∀ x ∈ a.current, P x := by
  unfold Transition.current
  split
  next => exact htarget
  next => exact forall_mem_blend hP horigin htarget

/-- What the elements of two lists have in common with those of a third one. -/
theorem forall₂_blend {δ : Type} {R : δ → τ → Prop}
    (hR : ∀ d a b, R d a → R d b → R d (blend a b t)) {ds : List δ} {as bs : List τ}
    (has : List.Forall₂ R ds as) (hbs : List.Forall₂ R ds bs) :
    List.Forall₂ R ds (blend as bs t) := by
  rw [blend_of_length_eq (has.length_eq.symm.trans hbs.length_eq)]
  induction has generalizing bs with
  | nil => exact .nil
  | cons ha _ ih =>
    cases hbs with
    | cons hb hbs => exact .cons (hR _ _ _ ha hb) (ih hbs)

end

section
variable {low high a b c d t : Rat}

/-- Between two numbers of an interval. -/
theorem blend_mem (ha : a ∈ Set.Icc low high) (hb : b ∈ Set.Icc low high)
    (ht : t ∈ Set.Icc (0 : Rat) 1) : blend a b t ∈ Set.Icc low high := by
  obtain ⟨ht₀, ht₁⟩ := ht
  have hconvex : blend a b t = (1 - t) * a + t * b := by
    change a + (b - a) * t = _
    ring
  rw [hconvex]
  constructor
  · nlinarith [ha.1, hb.1]
  · nlinarith [ha.2, hb.2]

theorem le_blend (ha : low ≤ a) (hb : low ≤ b) (ht : t ∈ Set.Icc (0 : Rat) 1) :
    low ≤ blend a b t :=
  (blend_mem ⟨ha, le_max_left _ _⟩ ⟨hb, le_max_right _ _⟩ ht).1

theorem blend_le (ha : a ≤ high) (hb : b ≤ high) (ht : t ∈ Set.Icc (0 : Rat) 1) :
    blend a b t ≤ high :=
  (blend_mem ⟨min_le_left _ _, ha⟩ ⟨min_le_right _ _, hb⟩ ht).2

theorem blend_add : blend a b t + blend c d t = blend (a + c) (b + d) t := by
  change a + (b - a) * t + (c + (d - c) * t) = a + c + (b + d - (a + c)) * t
  ring

end

/-- The progress is never beyond the ends. -/
theorem Easing.apply_mem (e : Easing) (t : Rat) : e.apply t ∈ Set.Icc (0 : Rat) 1 := by
  have hclamp : Scalar.clamp (0.0 : Rat) 1.0 t ∈ Set.Icc (0 : Rat) 1 := by
    rw [Exact.zero, Exact.one]
    exact Scalar.clamp_mem zero_le_one t
  cases e with
  | linear => exact hclamp
  | quadInOut =>
    simp only [Easing.apply]
    generalize Scalar.clamp (0.0 : Rat) 1.0 t = u at hclamp ⊢
    obtain ⟨hu₀, hu₁⟩ := hclamp
    split
    next hu => norm_num at hu ⊢; constructor <;> nlinarith
    next hu => norm_num at hu ⊢; constructor <;> nlinarith

/-! ## Starts -/

theorem Easing.apply_zero (e : Easing) : e.apply (0 : Rat) = 0 := by
  have hclamp : Scalar.clamp (0.0 : Rat) 1.0 0 = 0 := by norm_num [Scalar.clamp]
  cases e with
  | linear => exact hclamp
  | quadInOut =>
    simp only [Easing.apply, hclamp]
    norm_num

theorem blend_zero (a b : Rat) : blend a b (0 : Rat) = a := by
  change a + (b - a) * 0 = a
  rw [mul_zero, add_zero]

/-- What the shapes on their way have of their origins, if no origin is missing. -/
theorem map_blend {τ α γ : Type} [Blend τ α] {f : τ → γ} {t : α}
    (h : ∀ a b : τ, f (blend a b t) = f a) {as bs : List τ} (hlength : as.length = bs.length) :
    (blend as bs t).map f = as.map f := by
  rw [blend_of_length_eq hlength]
  induction as generalizing bs with
  | nil => rfl
  | cons a as ih =>
    cases bs with
    | nil => cases hlength
    | cons b bs =>
      rw [List.zipWith_cons_cons, List.map_cons, List.map_cons, h, ih (Nat.succ.inj hlength)]

theorem blend_list_zero {τ : Type} [Blend τ Rat] (h : ∀ a b : τ, blend a b (0 : Rat) = a)
    {as bs : List τ} (hlength : as.length = bs.length) : blend as bs (0 : Rat) = as := by
  simpa only [List.map_id] using map_blend (f := id) h hlength

/-- The animation is at its first moment, and has time left. -/
structure Transition.AtStart {τ : Type} [Blend τ Rat] (a : Transition τ Rat) : Prop where
  elapsed : a.elapsed = 0
  running : a.isFinished = false
  current : a.current = blend a.origin a.target (0 : Rat)

/-- An animation of some duration starts where its origin is. -/
theorem Transition.atStart {τ : Type} [Blend τ Rat] {origin target : τ} {duration : Rat}
    {easing : Easing} (h : 0 < duration) :
    (⟨origin, target, duration, easing, 0.0⟩ : Transition τ Rat).AtStart := by
  have hrunning : (⟨origin, target, duration, easing, 0.0⟩ : Transition τ Rat).isFinished
      = false := unfinished_of_lt (Exact.zero.trans_lt h)
  refine ⟨Exact.zero, hrunning, ?_⟩
  rw [current_of_unfinished hrunning]
  change blend origin target (easing.apply ((0.0 : Rat) / duration)) = _
  rw [Exact.zero, zero_div, Easing.apply_zero]

/-- There its clock already stands at zero. -/
theorem Transition.AtStart.advance_zero {τ : Type} [Blend τ Rat] {a : Transition τ Rat}
    (h : a.AtStart) : a.advance 0.0 = a := by
  rw [Exact.zero, ← h.elapsed]
  exact a.advance_elapsed

/-! ## Ways that meet -/

theorem blend_same {α : Type} [Scalar α] [LawfulScalar α] {a a' b b' : α}
    (ha : Scalar.Same a a') (hb : Scalar.Same b b') (t : α) :
    Scalar.Same (blend a b t) (blend a' b' t) :=
  LawfulScalar.same_add ha (LawfulScalar.same_mul_left t (LawfulScalar.same_sub hb ha))

/-- Before its end, two ways to one place differ if their starts do. -/
theorem blend_right_inj {a a' b t : Rat} (ht : t < 1) : blend a b t = blend a' b t ↔ a = a' := by
  constructor
  · intro h
    change a + (b - a) * t = a' + (b - a') * t at h
    have hprod : (a - a') * (1 - t) = 0 := by linarith
    rcases mul_eq_zero.1 hprod with h | h
    · linarith
    · linarith
  · rintro rfl
    rfl

/-- The progress is less than one before the end. -/
theorem Easing.apply_lt_one (e : Easing) {t : Rat} (ht : t < 1) : e.apply t < 1 := by
  have hclamp : 0 ≤ Scalar.clamp (0.0 : Rat) 1.0 t ∧ Scalar.clamp (0.0 : Rat) 1.0 t < 1 := by
    unfold Scalar.clamp
    split
    next => norm_num
    next h =>
      split
      next h' => norm_num at h'; linarith
      next => norm_num at h; exact ⟨h, ht⟩
  cases e with
  | linear => exact hclamp.2
  | quadInOut =>
    simp only [Easing.apply]
    generalize Scalar.clamp (0.0 : Rat) 1.0 t = u at hclamp ⊢
    split
    next hu => norm_num at hu ⊢; nlinarith
    next hu => norm_num at hu ⊢; nlinarith

/-- An animation with time left has not made its whole way. -/
theorem Transition.Timed.progress_lt_one {τ : Type} {a : Transition τ Rat} (h : a.Timed)
    (hrunning : a.elapsed < a.duration) : a.easing.apply (a.elapsed / a.duration) < 1 := by
  have hduration : 0 ≤ a.duration := Requirement.nonnegative_rat.1 h.duration
  apply Easing.apply_lt_one
  rcases hduration.eq_or_lt with hzero | hpos
  · rw [← hzero, div_zero]
    norm_num
  · rwa [div_lt_one hpos]

end CourseCharts

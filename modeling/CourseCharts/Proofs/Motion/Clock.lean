/-
  CourseCharts — animations in the course of time.

  The clock of an animation is moved to times that come in any order, and some
  of which may be no numbers.

  * `Transition.after` is the animation after some times, `Transition.samples` what
    it showed at them;
  * `Latest`: its clock stands at the latest of the times, or still at zero;
    every time keeps it so (`Latest.advance`), and the order of the times does
    not matter (`Latest.unique`);
  * `Easing.apply_mono`: no curve goes back; so in exact arithmetic the part of
    the way that is made (`Transition.made`) only grows, and what is left of it
    shrinks (`Transition.left_of_way`);
  * `clock_and_path_law`: all of this together.
-/
import CourseCharts.Proofs.Motion
import CourseCharts.Proofs.Number.Value
import Mathlib.Data.List.Induction
import Mathlib.Order.Interval.Set.UnorderedInterval

namespace CourseCharts

namespace Transition

variable {τ α : Type} [Scalar α]

/-! ## Times one after the other -/

/-- The animation after its clock was moved to some times, one after the other. -/
def after (a : Transition τ α) (times : List α) : Transition τ α := times.foldl advance a

/-- What was shown at these times. -/
def samples [Blend τ α] (a : Transition τ α) : List α → List τ
  | [] => []
  | time :: times => (a.advance time).current :: (a.advance time).samples times

variable (a : Transition τ α) (times : List α)

theorem after_append (more : List α) : a.after (times ++ more) = (a.after times).after more :=
  List.foldl_append

theorem after_concat (time : α) : a.after (times ++ [time]) = (a.after times).advance time := by
  rw [after_append]
  rfl

/-- Only the clock is moved. -/
theorem after_eq : a.after times = { a with elapsed := (a.after times).elapsed } := by
  induction times using List.reverseRecOn with
  | nil => rfl
  | append_singleton times time ih =>
    rw [after_concat, advance]
    split
    next => rw [ih]
    next => exact ih

@[simp] theorem after_origin : (a.after times).origin = a.origin := by rw [after_eq]

@[simp] theorem after_target : (a.after times).target = a.target := by rw [after_eq]

@[simp] theorem after_duration : (a.after times).duration = a.duration := by rw [after_eq]

@[simp] theorem after_easing : (a.after times).easing = a.easing := by rw [after_eq]

/-- What is shown at a time depends on the times up to it. -/
theorem getElem?_samples [Blend τ α] {i : Nat} (hi : i < times.length) :
    (a.samples times)[i]? = some (a.after (times.take (i + 1))).current := by
  induction times generalizing a i with
  | nil => cases hi
  | cons time times ih =>
    cases i with
    | zero => rfl
    | succ i => exact ih (a.advance time) (Nat.lt_of_succ_lt_succ hi)

end Transition

/-! ## The clock -/

/-- The time is the latest of those that are numbers, or zero if none is later. -/
structure Latest (times : List Float) (x : Float) : Prop where
  mem : x = 0.0 ∨ x ∈ times ∧ x.isFinite = true
  le : ∀ t ∈ times, t.isFinite = true → t ≤ x
  zero_or_pos : x = 0.0 ∨ 0.0 < x

namespace Latest

open Scalar (ratOfFloat)

variable {times times' : List Float} {x y : Float}

theorem initial : Latest [] 0.0 := ⟨.inl rfl, by simp, .inl rfl⟩

theorem isFinite (h : Latest times x) : x.isFinite = true := by
  rcases h.mem with rfl | ⟨-, hx⟩
  · rfl
  · exact hx

theorem zero_le (h : Latest times x) : 0.0 ≤ x := by
  rcases h.zero_or_pos with rfl | hpos
  · exact Scalar.le_refl (α := Float) rfl
  · exact Double.le_of_lt hpos

/-- A time that is not later changes nothing. -/
theorem keep (h : Latest times x) {t : Float} (ht : t.isFinite = true → ¬ x < t) :
    Latest (times ++ [t]) x where
  mem := h.mem.imp_right fun ⟨hmem, hx⟩ => ⟨List.mem_append_left _ hmem, hx⟩
  le u hu hfinite := by
    rcases List.mem_append.1 hu with hu | hu
    · exact h.le u hu hfinite
    · obtain rfl := List.mem_singleton.1 hu
      by_contra hnot
      exact ht hfinite (Double.lt_of_not_le hfinite h.isFinite hnot)
  zero_or_pos := h.zero_or_pos

/-- A later time is now the latest. -/
theorem move (h : Latest times x) {t : Float} (ht : t.isFinite = true) (hlt : x < t) :
    Latest (times ++ [t]) t := by
  have hlt' := (Double.lt_iff_rat h.isFinite ht).1 hlt
  refine ⟨.inr ⟨by simp, ht⟩, fun u hu hfinite => ?_, .inr ?_⟩
  · rcases List.mem_append.1 hu with hu | hu
    · have hle := (Double.le_iff_rat hfinite h.isFinite).1 (h.le u hu hfinite)
      exact (Double.le_iff_rat hfinite ht).2 (hle.trans hlt'.le)
    · rw [List.mem_singleton.1 hu]
      exact Scalar.le_refl (α := Float) ht
  · have hle := (Double.le_iff_rat rfl h.isFinite).1 h.zero_le
    exact (Double.lt_iff_rat rfl ht).2 (hle.trans_lt hlt')

theorem advance {τ : Type} {a : Transition τ Float} (h : Latest times a.elapsed) (t : Float) :
    Latest (times ++ [t]) (a.advance t).elapsed := by
  unfold Transition.advance
  split
  next hlater =>
    rw [Bool.and_eq_true] at hlater
    exact h.move hlater.1 (of_decide_eq_true hlater.2)
  next hnot =>
    refine h.keep fun hfinite hlt => hnot ?_
    rw [Bool.and_eq_true]
    exact ⟨hfinite, decide_eq_true hlt⟩

/-- The clock of an animation that starts at zero stands at the latest of the times. -/
theorem after {τ : Type} {a : Transition τ Float} (h : a.elapsed = 0.0) (times : List Float) :
    Latest times (a.after times).elapsed := by
  induction times using List.reverseRecOn with
  | nil =>
    change Latest [] a.elapsed
    rw [h]
    exact .initial
  | append_singleton times t ih =>
    rw [Transition.after_concat]
    exact ih.advance t

theorem mono (h : Latest times x) (h' : Latest times' y) (hsub : times ⊆ times') : x ≤ y := by
  rcases h.mem with rfl | ⟨hmem, hx⟩
  · exact h'.zero_le
  · exact h'.le x (hsub hmem) hx

/-- The latest time does not depend on the order.  It is one double: of the two zeros, it is
    the one the clock starts at. -/
theorem unique (h : Latest times x) (h' : Latest times' y) (hperm : times.Perm times') :
    x = y := by
  have hxy := h.mono h' hperm.subset
  have hyx := h'.mono h hperm.symm.subset
  have hsame : (x == y) = true := by
    rw [Double.beq_iff_rat h.isFinite h'.isFinite]
    exact le_antisymm ((Double.le_iff_rat h.isFinite h'.isFinite).1 hxy)
      ((Double.le_iff_rat h'.isFinite h.isFinite).1 hyx)
  have hnegative {z : Float} (hz : z = 0.0 ∨ 0.0 < z) : z ≠ -0 := by
    rintro rfl
    revert hz
    decide
  obtain ⟨-, -, heq | ⟨-, hy⟩ | ⟨hx, -⟩⟩ := Float.beq_iff_ne_nan_and_eq.1 hsame
  · exact heq
  · exact absurd hy (hnegative h'.zero_or_pos)
  · exact absurd hx (hnegative h.zero_or_pos)

end Latest

/-! ## The way -/

/-- No curve goes back. -/
theorem Easing.apply_mono (e : Easing) {s t : Rat} (h : s ≤ t) : e.apply s ≤ e.apply t := by
  have hclamp : Scalar.clamp (0.0 : Rat) 1.0 s ≤ Scalar.clamp (0.0 : Rat) 1.0 t := by
    unfold Scalar.clamp
    split_ifs <;> norm_num at * <;> linarith
  cases e with
  | linear => exact hclamp
  | quadInOut =>
    have hs : Scalar.clamp (0.0 : Rat) 1.0 s ∈ Set.Icc (0.0 : Rat) 1.0 :=
      Scalar.clamp_mem (by norm_num) s
    have ht : Scalar.clamp (0.0 : Rat) 1.0 t ∈ Set.Icc (0.0 : Rat) 1.0 :=
      Scalar.clamp_mem (by norm_num) t
    simp only [Easing.apply]
    generalize Scalar.clamp (0.0 : Rat) 1.0 s = u at hclamp hs ⊢
    generalize Scalar.clamp (0.0 : Rat) 1.0 t = v at hclamp ht ⊢
    rw [Exact.zero, Exact.one] at hs ht
    obtain ⟨hu₀, hu₁⟩ := hs
    obtain ⟨hv₀, hv₁⟩ := ht
    split_ifs with hu hv hv <;> norm_num at hu hv ⊢
    · nlinarith
    · nlinarith
    · nlinarith
    · nlinarith

namespace Transition

section
variable {τ : Type} (a : Transition τ Rat)

/-- The part of the way that is made. -/
def made : Rat := if a.isFinished then 1 else a.easing.apply (a.elapsed / a.duration)

theorem made_mem : a.made ∈ Set.Icc (0 : Rat) 1 := by
  unfold made
  split
  next => exact ⟨zero_le_one, le_rfl⟩
  next => exact a.easing.apply_mem _

theorem le_advance (time : Rat) : a.elapsed ≤ (a.advance time).elapsed := by
  unfold advance
  split
  next h =>
    rw [Scalar.isFinite_rat, Bool.true_and, decide_eq_true_eq] at h
    exact h.le
  next => exact le_rfl

theorem le_after (times : List Rat) : a.elapsed ≤ (a.after times).elapsed := by
  induction times using List.reverseRecOn with
  | nil => exact le_rfl
  | append_singleton times time ih =>
    rw [after_concat]
    exact ih.trans (le_advance _ time)

/-- None of it is taken back. -/
theorem made_le_after (h : 0 ≤ a.duration) (times : List Rat) : a.made ≤ (a.after times).made := by
  unfold made
  split
  next hfinished =>
    have hdone : (a.after times).isFinished = true := by
      have hle := a.le_after times
      simp only [isFinished, after_duration, decide_eq_true_eq] at hfinished ⊢
      exact hfinished.trans hle
    rw [if_pos hdone]
  next =>
    split
    next => exact (a.easing.apply_mem _).2
    next =>
      rw [after_easing, after_duration]
      exact a.easing.apply_mono (div_le_div_of_nonneg_right (a.le_after times) h)

end

section
variable (a : Transition Rat Rat)

theorem current_eq : a.current = blend a.origin a.target a.made := by
  unfold current made
  split
  next =>
    change a.target = a.origin + (a.target - a.origin) * 1
    ring
  next => rfl

/-- What is left of the way. -/
theorem left_of_way :
    |a.target - a.current| = |a.target - a.origin| * (1 - a.made) := by
  have hle := a.made_mem.2
  have hleft : a.target - a.current = (a.target - a.origin) * (1 - a.made) := by
    rw [current_eq]
    change a.target - (a.origin + (a.target - a.origin) * a.made) = _
    ring
  rw [hleft, abs_mul, abs_of_nonneg (sub_nonneg.2 hle)]

theorem current_mem : a.current ∈ Set.uIcc a.origin a.target := by
  rw [current_eq]
  exact blend_mem Set.left_mem_uIcc Set.right_mem_uIcc a.made_mem

/-- Later, no more is left of it. -/
theorem left_of_way_after (h : 0 ≤ a.duration) (times : List Rat) :
    |a.target - (a.after times).current| ≤ |a.target - a.current| := by
  have hleft := (a.after times).left_of_way
  rw [after_target, after_origin] at hleft
  rw [hleft, left_of_way]
  exact mul_le_mul_of_nonneg_left (sub_le_sub_left (a.made_le_after h times) 1) (abs_nonneg _)

end

/-! ## Clock and way -/

/-- **The clock only goes forward, and so does the way.**  After any times that are handed to
    an animation, numbers or not and in any order,

    * its clock stands at the latest of those that are numbers, and at zero if none is
      later: it never goes back, and the same times in another order lead to the same
      animation;
    * at each time the shape at the clock is shown: from the duration on the target, now
      and ever after, and before it the shape between the origin and the target at the
      eased part of the duration.

    In exact arithmetic a number that is shown lies between the origin and the target, and
    what is shown later is never farther from the target. -/
theorem clock_and_path_law :
    (∀ {τ : Type} [Blend τ Float] {origin target : τ} {duration : Float} {easing : Easing}
      {a : Transition τ Float}, make? origin target duration easing = .ok a →
      ∀ times : List Float,
        Latest times (a.after times).elapsed ∧
        (∀ more, (a.after times).elapsed ≤ (a.after (times ++ more)).elapsed) ∧
        (∀ times', times.Perm times' → a.after times' = a.after times) ∧
        (∀ i < times.length,
          (a.samples times)[i]? = some (a.after (times.take (i + 1))).current) ∧
        (duration ≤ (a.after times).elapsed →
          ∀ more, (a.after (times ++ more)).current = target) ∧
        (¬ duration ≤ (a.after times).elapsed →
          (a.after times).current =
            blend origin target (easing.apply ((a.after times).elapsed / duration)))) ∧
    (∀ {origin target duration : Rat} {easing : Easing} {a : Transition Rat Rat},
      make? origin target duration easing = .ok a →
      ∀ times more : List Rat,
        (a.after times).current ∈ Set.uIcc origin target ∧
        |target - (a.after (times ++ more)).current| ≤ |target - (a.after times).current|) := by
  constructor
  · intro τ _ origin target duration easing a ha times
    obtain ⟨hduration, rfl⟩ := make?_eq_ok.1 ha
    set a : Transition τ Float := ⟨origin, target, duration, easing, 0.0⟩
    have hlatest (times : List Float) : Latest times (a.after times).elapsed := .after rfl times
    have hforward (more : List Float) :
        (a.after times).elapsed ≤ (a.after (times ++ more)).elapsed :=
      (hlatest times).mono (hlatest _) (List.subset_append_left times more)
    refine ⟨hlatest times, hforward, fun times' hperm => ?_,
      fun i hi => a.getElem?_samples times hi, fun hdone more => ?_, fun hrunning => ?_⟩
    · rw [a.after_eq times', a.after_eq times, (hlatest times').unique (hlatest times) hperm.symm]
    · have hfinite : duration.isFinite = true := Requirement.finite_of_holds hduration
      have hfinished : (a.after (times ++ more)).isFinished = true := by
        rw [isFinished, after_duration, decide_eq_true_eq]
        rw [Double.le_iff_rat hfinite (hlatest _).isFinite] at hdone ⊢
        exact hdone.trans ((Double.le_iff_rat (hlatest _).isFinite (hlatest _).isFinite).1
          (hforward more))
      rw [current_of_finished hfinished, after_target]
    · have hunfinished : (a.after times).isFinished = false := by
        rw [isFinished, after_duration]
        exact decide_eq_false hrunning
      rw [current_of_unfinished hunfinished, after_origin, after_target, after_easing,
        after_duration]
  · intro origin target duration easing a ha times more
    obtain ⟨hduration, rfl⟩ := make?_eq_ok.1 ha
    have hnonneg : 0 ≤ duration := Requirement.nonnegative_rat.1 hduration
    set a : Transition Rat Rat := ⟨origin, target, duration, easing, 0.0⟩
    have hmem := (a.after times).current_mem
    have hleft := (a.after times).left_of_way_after (by rwa [after_duration]) more
    rw [after_origin, after_target] at hmem
    rw [after_target, ← after_append] at hleft
    exact ⟨hmem, hleft⟩

/-- A time that is no number, an early one and one below zero do not hold up an animation
    that has been running for 600 of its 1000 milliseconds; in any order of the times it ends
    there. -/
theorem clock_and_path_law_out_of_order :
    let a : Transition Float Float := ⟨0.0, 100.0, 1000.0, .linear, 0.0⟩
    let b : Transition Rat Rat := ⟨0, 100, 1000, .quadInOut, 0.0⟩
    let times : List Float := [200.0, 0.0 / 0.0, 600.0, -50.0]
    make? 0.0 100.0 1000.0 .linear = .ok a ∧
    Latest times 600.0 ∧ (a.after times).current = 60.0 ∧
    a.after [600.0, 200.0, -50.0, 0.0 / 0.0] = a.after times ∧
    make? 0 100 1000 .quadInOut = .ok b ∧ (b.after [600]).current = 68 ∧
    (b.after [600]).current ∈ Set.uIcc 0 100 ∧
    |100 - (b.after ([600] ++ [900])).current| ≤ |100 - (b.after [600]).current| := by
  intro a b times
  have ha : make? 0.0 100.0 1000.0 .linear = .ok a := rfl
  have hb : make? 0 100 1000 .quadInOut = .ok b :=
    make?_eq_ok.2 ⟨Requirement.nonnegative_rat.2 (by norm_num), rfl⟩
  obtain ⟨hlatest, -, hperm, -, -, -⟩ := clock_and_path_law.1 ha times
  obtain ⟨hmem, hleft⟩ := clock_and_path_law.2 hb [600] [900]
  have helapsed : (a.after times).elapsed = 600.0 := by decide +kernel
  have hcurrent : (a.after times).current = 60.0 := by decide +kernel
  have hcurrent' : (b.after [600]).current = 68 := by decide +kernel
  have horder : times.Perm [600.0, 200.0, -50.0, 0.0 / 0.0] := by decide
  exact ⟨ha, helapsed ▸ hlatest, hcurrent, hperm _ horder, hb, hcurrent', hmem, hleft⟩

end Transition

end CourseCharts

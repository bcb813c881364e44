/-
  CourseCharts — charts with an animation.

  Both charts draw on their surfaces and move the clocks of their animations in
  the same way, and know no more of their surfaces than the answers to the
  frames they draw.

  * `Animated` charts have a surface and an animation, which can be replaced;
  * `Animated.advance_some` and the like say what moving the clock does to such
    a chart;
  * `Animated.Mirrors` relates what an operation leaves on two surfaces: the same
    result, and charts that differ in nothing but their surfaces;
    `Animated.advance_mirrors`: so it is on surfaces that answer alike;
  * `run` are operations one after the other, and `Animated.run_mirrors` says so
    of a run if it is so for every operation.
-/
import CourseCharts.Motion.Transition
import CourseCharts.Proofs.Drawing.Surface
import Mathlib.Data.List.Induction

namespace CourseCharts

/-- Charts with an animation through shapes of `P`, on any surface. -/
class Animated (C : Type → Type) (α P : outParam Type) where
  surface {σ : Type} (c : C σ) : σ
  animation {σ : Type} (c : C σ) : Option (Transition P α)
  /-- The chart with another animation, on another surface. -/
  update {σ τ : Type} (c : C σ) (a : Option (Transition P α)) (t : τ) : C τ
  /-- What the chart shows at this moment of the animation. -/
  frameAt {σ : Type} (c : C σ) (a : Transition P α) : Frame α
  surface_update {σ τ : Type} (c : C σ) (a : Option (Transition P α)) (t : τ) :
    surface (update c a t) = t
  animation_update {σ τ : Type} (c : C σ) (a : Option (Transition P α)) (t : τ) :
    animation (update c a t) = a
  frameAt_update {σ τ : Type} (c : C σ) (a : Option (Transition P α)) (t : τ) :
    frameAt (update c a t) = frameAt c
  update_update {σ τ υ : Type} (c : C σ) (a b : Option (Transition P α)) (t : τ) (u : υ) :
    update (update c a t) b u = update c b u
  update_self {σ : Type} (c : C σ) : update c (animation c) (surface c) = c

namespace Animated

attribute [simp] surface_update animation_update frameAt_update update_update update_self

variable {C : Type → Type} {α β γ P σ τ : Type} [Animated C α P]

/-- The chart on another surface. -/
def on (c : C σ) (t : τ) : C τ := update c (animation c) t

/-! ## Operations of all charts -/

section
variable [Surface σ α]

/-- Shows a frame on the surface. -/
def draw (f : Frame α) (c : C σ) : Except ChartError Unit × C σ :=
  ((Surface.draw f (surface c)).1, on c (Surface.draw f (surface c)).2)

variable [Scalar α]

/-- Moves the animation to a time since its start and draws it. -/
def advance (time : α) (c : C σ) : Except ChartError Bool × C σ :=
  match animation c with
  | none => (.ok false, c)
  | some a =>
    let a := a.advance time
    let c := update c (if a.isFinished then none else some a) (surface c)
    ((draw (frameAt c a) c).1.map fun _ => !a.isFinished, (draw (frameAt c a) c).2)

/-- Moves the animation to its end. -/
def finish (c : C σ) : Except ChartError Unit × C σ :=
  match animation c with
  | none => (.ok (), c)
  | some a => ((advance a.duration c).1.map fun _ => (), (advance a.duration c).2)

variable {c : C σ} {a : Transition P α}

theorem advance_none (h : animation c = none) (time : α) : (advance time c).2 = c := by
  simp [advance, h]

/-- The clock moves, and a finished animation goes. -/
theorem advance_some (h : animation c = some a) (time : α) : ∃ s, (advance time c).2 =
    update c (if (a.advance time).isFinished then none else some (a.advance time)) s := by
  simp only [advance, h, draw, on, animation_update, update_update]
  exact ⟨_, rfl⟩

/-- Nothing but the animation and the surface changes. -/
theorem advance_eq (c : C σ) (time : α) : ∃ a s, (advance time c).2 = update c a s := by
  cases ha : animation c with
  | none => exact ⟨animation c, surface c, by rw [advance_none ha, update_self]⟩
  | some a =>
    obtain ⟨s, hs⟩ := advance_some ha time
    exact ⟨_, s, hs⟩

/-- An animation that goes on is not finished. -/
theorem animation_of_advance {time : α} (h : animation (advance time c).2 = some a) :
    ∃ a₀, animation c = some a₀ ∧ a = a₀.advance time ∧ a.isFinished = false := by
  cases ha : animation c with
  | none =>
    rw [advance_none ha, ha] at h
    cases h
  | some a₀ =>
    obtain ⟨s, hs⟩ := advance_some ha time
    rw [hs, animation_update] at h
    split at h
    next => cases h
    next hf =>
      cases h
      exact ⟨a₀, rfl, rfl, by simpa using hf⟩

end

/-! ## Two surfaces -/

/-- The same outcome on two surfaces, which are related by `R` afterwards. -/
def Mirrors (R : σ → τ → Prop) (r : β × C σ) (r' : β × C τ) : Prop :=
  ∃ t, R (surface r.2) t ∧ r' = (r.1, on r.2 t)

section
variable {R : σ → τ → Prop} {c : C σ} {t : τ}

theorem Mirrors.refl (h : R (surface c) t) (b : β) : Mirrors R (b, c) (b, on c t) := ⟨t, h, rfl⟩

theorem Mirrors.map {r : β × C σ} {r' : β × C τ} (h : Mirrors R r r') (f : β → γ) :
    Mirrors R (f r.1, r.2) (f r'.1, r'.2) := by
  obtain ⟨t, ht, rfl⟩ := h
  exact ⟨t, ht, rfl⟩

variable [Surface σ α] [Surface τ α] (hR : Surface.AnswerAlike α R) (h : R (surface c) t)

include hR h

theorem draw_mirrors (f : Frame α) : Mirrors R (draw f c) (draw f (on c t)) := by
  obtain ⟨hanswer, hstay⟩ := hR f (surface c) t h
  refine ⟨(Surface.draw f t).2, ?_, ?_⟩
  · simpa [draw, on] using hstay
  · simp [draw, on, hanswer]

variable [Scalar α]

theorem advance_mirrors (time : α) : Mirrors R (advance time c) (advance time (on c t)) := by
  have hon : animation (on c t) = animation c := by simp [on]
  unfold advance
  rw [hon]
  cases animation c with
  | none => exact .refl h _
  | some a =>
    have hdraw := draw_mirrors
      (c := update c (if (a.advance time).isFinished then none else some (a.advance time))
        (surface c)) hR (by simpa using h) (frameAt c (a.advance time))
    simpa [on] using hdraw.map (Except.map fun _ => !(a.advance time).isFinished)

theorem finish_mirrors : Mirrors R (finish c) (finish (on c t)) := by
  have hon : animation (on c t) = animation c := by simp [on]
  unfold finish
  rw [hon]
  cases animation c with
  | none => exact .refl h _
  | some a => exact (advance_mirrors hR h a.duration).map (Except.map fun _ => ())

end

end Animated

/-! ## Runs -/

section
variable {C Op β : Type} (perform : Op → C → β × C) (c : C) (ops : List Op)

/-- What is there after some operations, whatever they returned. -/
def run : C := ops.foldl (fun c op => (perform op c).2) c

theorem run_concat (op : Op) :
    run perform c (ops ++ [op]) = (perform op (run perform c ops)).2 := by
  rw [run, List.foldl_append]
  rfl

end

/-- Runs of operations leave charts that differ in nothing but their surfaces, if all operations
    do. -/
theorem Animated.run_mirrors {C : Type → Type} {α β P σ τ Op : Type} [Animated C α P]
    {R : σ → τ → Prop} {perform : Op → C σ → β × C σ} {perform' : Op → C τ → β × C τ}
    (hperform : ∀ {c : C σ} {t : τ}, R (surface c) t →
      ∀ op, Mirrors R (perform op c) (perform' op (on c t)))
    {c : C σ} {t : τ} (h : R (surface c) t) (ops : List Op) :
    ∃ t', R (surface (run perform c ops)) t' ∧
      run perform' (on c t) ops = on (run perform c ops) t' := by
  induction ops using List.reverseRecOn with
  | nil => exact ⟨t, h, rfl⟩
  | append_singleton ops op ih =>
    obtain ⟨t₁, ht₁, he₁⟩ := ih
    obtain ⟨t₂, ht₂, he₂⟩ := hperform ht₁ op
    rw [run_concat, run_concat, he₁, he₂]
    exact ⟨t₂, ht₂, rfl⟩

end CourseCharts

/-
  CourseCharts — an overview chart on different surfaces.

  An operation looks at its surface only through the answers to the frames it
  draws.

  * `Operation.perform_mirrors`: on surfaces that answer alike, an operation gives
    the same result, and the charts after it differ in nothing but their surfaces;
  * `Chart.after_mirrors`: so do the charts after a run.
-/
import CourseCharts.Proofs.Drawing.Surface
import CourseCharts.Proofs.Overview.Run

namespace CourseCharts.Overview

open Animated (Mirrors)

variable {α σ τ : Type}

namespace Chart

/-- The chart on another surface. -/
def on (c : Chart α σ) (t : τ) : Chart α τ :=
  ⟨t, c.config, c.presentation, c.data, c.grouping, c.layout, c.geometry, c.animation⟩

section
variable {R : σ → τ → Prop} {c : Chart α σ} {t : τ}

variable [Scalar α] [Surface σ α] [Surface τ α] (hR : Surface.AnswerAlike α R)
  (h : R c.surface t)

include hR h

theorem draw_mirrors (f : Frame α) : Mirrors R (c.draw f) ((c.on t).draw f) :=
  Animated.draw_mirrors (c := c) hR h f

theorem render_mirrors (data : List Datum) (grouping : Grouping) :
    Mirrors R (c.render data grouping) ((c.on t).render data grouping) := by
  simp only [render, fit?, arrangement, on]
  split
  next =>
    refine draw_mirrors (c := { c with
      data, grouping, layout := none, geometry := [], animation := none }) hR ?_ _
    exact h
  next =>
    split
    next => exact ⟨t, h, rfl⟩
    next l geometry _ =>
      refine draw_mirrors (c := { c with
        data, grouping, layout := some l, geometry, animation := none }) hR ?_ _
      exact h

theorem renderPayload_mirrors (response : Json.Value) (grouping : Grouping) :
    Mirrors R (c.renderPayload response grouping)
      ((c.on t).renderPayload response grouping) := by
  unfold renderPayload
  split
  next data _ => exact render_mirrors hR h data grouping
  next => exact render_mirrors hR h [] grouping
  next => exact .refl h _

theorem advance_mirrors (time : α) : Mirrors R (c.advance time) ((c.on t).advance time) := by
  rw [advance_animated, advance_animated]
  exact Animated.advance_mirrors (c := c) hR h time

theorem finish_mirrors : Mirrors R c.finish (c.on t).finish := by
  rw [finish_animated, finish_animated]
  exact Animated.finish_mirrors (c := c) hR h

theorem toggle_mirrors : Mirrors R c.toggle (c.on t).toggle := by
  obtain ⟨surface, config, presentation, data, grouping, layout, geometry, animation⟩ := c
  cases layout with
  | none => exact ⟨t, h, rfl⟩
  | some l =>
    simp only [toggle, arrange?, shown, arrangement, on]
    split
    next => exact ⟨t, h, rfl⟩
    next es a _ =>
      have hfirst := advance_mirrors (c := ⟨surface, config, presentation.toggleArrangement, data,
        grouping, some l, es, some a⟩) hR h 0.0
      exact hfirst.map (Except.map fun _ => presentation.toggleArrangement.arrangement)

end

end Chart

variable [Scalar α] [Surface σ α] [Surface τ α] {R : σ → τ → Prop}

/-- On surfaces that answer alike, an operation gives the same result, and the charts after it
    differ in nothing but their surfaces. -/
theorem Operation.perform_mirrors (hR : Surface.AnswerAlike α R) {c : Chart α σ} {t : τ}
    (h : R c.surface t) (op : Operation α) :
    Mirrors R (op.perform c) (op.perform (c.on t)) := by
  cases op with
  | render data grouping => exact (Chart.render_mirrors hR h data grouping).map _
  | renderPayload response grouping =>
    exact (Chart.renderPayload_mirrors hR h response grouping).map _
  | toggle => exact (Chart.toggle_mirrors hR h).map _
  | handle input =>
    cases input with
    | chartBody => exact ((Chart.toggle_mirrors hR h).map _).map _
    | outlierCheckbox => exact .refl h _
  | advance time => exact (Chart.advance_mirrors hR h time).map _
  | finish => exact (Chart.finish_mirrors hR h).map _

/-- So do charts after a run. -/
theorem Chart.after_mirrors (hR : Surface.AnswerAlike α R) {c : Chart α σ} {t : τ}
    (h : R c.surface t) (ops : List (Operation α)) :
    ∃ t', R (c.after ops).surface t' ∧ (c.on t).after ops = (c.after ops).on t' :=
  Animated.run_mirrors (fun h op => op.perform_mirrors hR h) h ops

end CourseCharts.Overview

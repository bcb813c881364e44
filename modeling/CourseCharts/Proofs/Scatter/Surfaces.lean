/-
  CourseCharts — a scatter chart on different surfaces.

  An operation looks at its surface only through the answers to the frames it
  draws.

  * `Operation.perform_mirrors`: on surfaces that answer alike, an operation gives
    the same result, and the charts after it differ in nothing but their surfaces;
  * `Chart.after_mirrors`: so do the charts after a run;
  * `Operation.calls` are the frames that an operation draws;
    `Operation.perform_recorded` says that recording them changes nothing.
-/
import CourseCharts.Proofs.Drawing.Surface
import CourseCharts.Proofs.Scatter.Run

namespace CourseCharts.Scatter

open Animated (Mirrors)

variable {α σ τ : Type}

namespace Chart

/-- The chart on another surface. -/
def on (c : Chart α σ) (t : τ) : Chart α τ :=
  ⟨t, c.config, c.presentation, c.dataset, c.base, c.zoom, c.projection, c.animation⟩

section
variable {R : σ → τ → Prop} {c : Chart α σ} {t : τ}

variable [Scalar α] [Surface σ α] [Surface τ α] (hR : Surface.AnswerAlike α R)
  (h : R c.surface t)

include hR h

theorem draw_mirrors (f : Frame α) : Mirrors R (c.draw f) ((c.on t).draw f) :=
  Animated.draw_mirrors (c := c) hR h f

theorem redraw_mirrors : Mirrors R c.redraw (c.on t).redraw := by
  obtain ⟨surface, config, presentation, dataset, base, zoom, projection, animation⟩ := c
  cases dataset with
  | none =>
    refine draw_mirrors hR ?_ _
    exact h
  | some d =>
    simp only [redraw, on, reset]
    split
    next =>
      refine draw_mirrors hR ?_ _
      exact h
    next =>
      simp only [fit?, showOutliers]
      split
      next => exact ⟨t, h, rfl⟩
      next =>
        refine draw_mirrors hR ?_ _
        exact h

theorem renderPayload_mirrors (response : Json.Value) (grouping : Grouping) :
    Mirrors R (c.renderPayload response grouping)
      ((c.on t).renderPayload response grouping) := by
  unfold renderPayload
  split
  next p _ =>
    exact redraw_mirrors
      (c := { c with dataset := some ⟨p.points, p.info.xAxis, p.info.yAxis, grouping⟩ }) hR h
  next => exact redraw_mirrors (c := { c with dataset := none }) hR h
  next => exact .refl h _

theorem toggleOutliers_mirrors : Mirrors R c.toggleOutliers (c.on t).toggleOutliers :=
  (redraw_mirrors (c := { c with presentation := c.presentation.toggleOutliers }) hR h).map _

theorem advance_mirrors (time : α) : Mirrors R (c.advance time) ((c.on t).advance time) := by
  rw [advance_animated, advance_animated]
  exact Animated.advance_mirrors (c := c) hR h time

theorem finish_mirrors : Mirrors R c.finish (c.on t).finish := by
  rw [finish_animated, finish_animated]
  exact Animated.finish_mirrors (c := c) hR h

theorem zoomBy_mirrors (delta : Zoom α) :
    Mirrors R (c.zoomBy delta) ((c.on t).zoomBy delta) := by
  have hd : (c.on t).dataset = c.dataset := rfl
  have hb : (c.on t).base = c.base := rfl
  have hp : (c.on t).projection = c.projection := rfl
  have hs : (c.on t).shown = c.shown := rfl
  unfold zoomBy
  rw [hd, hb, hp, hs]
  split
  next => exact .refl h _
  next =>
    split
    next d base p shown _ _ _ _ =>
      have hz : (c.on t).zoomStep? delta d base shown.markers
          = c.zoomStep? delta d base shown.markers := rfl
      rw [hz]
      split
      next => exact .refl h _
      next zoom target a _ =>
        have hfirst := advance_mirrors
          (c := { c with zoom, projection := some target, animation := some a }) hR h 0.0
        exact hfirst.map (Except.map fun _ => ())
    next => exact .refl h _

end

end Chart

namespace Operation

variable [Scalar α] [Surface σ α]

/-- On surfaces that answer alike, an operation gives the same result, and the charts after it
    differ in nothing but their surfaces. -/
theorem perform_mirrors [Surface τ α] {R : σ → τ → Prop} (hR : Surface.AnswerAlike α R)
    {c : Chart α σ} {t : τ} (h : R c.surface t) (op : Operation α) :
    Mirrors R (op.perform c) (op.perform (c.on t)) := by
  cases op with
  | render d => exact (Chart.redraw_mirrors (c := { c with dataset := some d }) hR h).map _
  | renderPayload response grouping =>
    exact (Chart.renderPayload_mirrors hR h response grouping).map _
  | clear => exact (Chart.redraw_mirrors (c := { c with dataset := none }) hR h).map _
  | toggleOutliers => exact (Chart.toggleOutliers_mirrors hR h).map _
  | handle input =>
    cases input with
    | outlierCheckbox => exact ((Chart.toggleOutliers_mirrors hR h).map _).map _
    | chartBody => exact .refl h _
  | zoomBy delta => exact (Chart.zoomBy_mirrors hR h delta).map _
  | advance time => exact (Chart.advance_mirrors hR h time).map _
  | finish => exact (Chart.finish_mirrors hR h).map _

/-- The frames that an operation asks the surface to show, with the answers. -/
def calls (op : Operation α) (c : Chart α σ) : List (Frame α × Except ChartError Unit) :=
  let recorder : Recorder σ α := ⟨c.surface, []⟩
  (op.perform (c.on recorder)).2.surface.calls

/-- Recording the surface of a chart changes neither the result nor the chart. -/
theorem perform_recorded (op : Operation α) (c : Chart α σ) :
    let recorder : Recorder σ α := ⟨c.surface, []⟩
    op.perform (c.on recorder) =
      ((op.perform c).1, (op.perform c).2.on ⟨(op.perform c).2.surface, op.calls c⟩) := by
  intro recorder
  obtain ⟨t, ht, he⟩ := perform_mirrors Recorder.answerAlike (t := recorder) rfl op
  have hcalls : op.calls c = t.calls := by
    rw [calls, he]
    rfl
  have hsurface : t.surface = (op.perform c).2.surface := ht
  rw [he, hcalls, ← hsurface]
  rfl

end Operation

/-! ## Runs -/

namespace Chart

variable [Scalar α]

/-- On surfaces that answer alike, the charts after a run differ in nothing but their surfaces. -/
theorem after_mirrors [Surface σ α] [Surface τ α] {R : σ → τ → Prop}
    (hR : Surface.AnswerAlike α R) {c : Chart α σ} {t : τ} (h : R c.surface t)
    (ops : List (Operation α)) :
    ∃ t', R (c.after ops).surface t' ∧ (c.on t).after ops = (c.after ops).on t' :=
  Animated.run_mirrors (fun h op => op.perform_mirrors hR h) h ops

end Chart

end CourseCharts.Scatter

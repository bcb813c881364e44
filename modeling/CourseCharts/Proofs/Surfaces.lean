/-
  CourseCharts — charts do not depend on their surfaces.

  A surface that writes an SVG document and one that only keeps the frame
  accept the same frames, and a chart learns nothing else of its surface.

  * `Scatter.Chart.after_svg` and `Overview.Chart.after_svg`: after a run the
    two charts are equal but for their surfaces, and the document is that of the
    frame that is kept;
  * `charts_alike_on_surfaces`: hence all results are the same, and both surfaces
    are at the last frame that was accepted.
-/
import CourseCharts.Proofs.Overview.Surfaces
import CourseCharts.Proofs.Scatter.Display
import CourseCharts.Proofs.Scatter.Surfaces

namespace CourseCharts

variable {α : Type} [Scalar α]

/-! ## Scatter charts -/

namespace Scatter

variable {c : Chart α (HeadlessSurface α)}

/-- The chart on a surface that writes the document of its frame. -/
def Chart.onSvg (c : Chart α (HeadlessSurface α)) (id : String) : Chart α SvgSurface :=
  c.on (.showing id c.surface)

theorem Chart.make?_svg (id : String) (config : Config α) :
    make? (SvgSurface.initial id) config
      = (make? (HeadlessSurface.initial : HeadlessSurface α) config).map (·.onSvg id) := by
  unfold make?
  cases config.validate <;> rfl

theorem Operation.perform_svg (op : Operation α) (c : Chart α (HeadlessSurface α)) (id : String) :
    op.perform (c.onSvg id) = ((op.perform c).1, (op.perform c).2.onSvg id) := by
  obtain ⟨_, rfl, he⟩ :=
    op.perform_mirrors (SvgSurface.answerAlike id) (c := c) (t := .showing id c.surface) rfl
  exact he

theorem Chart.after_svg (c : Chart α (HeadlessSurface α)) (id : String)
    (ops : List (Operation α)) : (c.onSvg id).after ops = (c.after ops).onSvg id := by
  obtain ⟨_, rfl, he⟩ :=
    c.after_mirrors (SvgSurface.answerAlike id) (t := .showing id c.surface) rfl ops
  exact he

/-- The chart on a surface that is recorded from now on. -/
def Chart.recorded (c : Chart α (HeadlessSurface α)) : Chart α (Recorder (HeadlessSurface α) α) :=
  c.on ⟨c.surface, []⟩

/-- The frame that is kept is the last one of the run that was accepted. -/
theorem Chart.frame_after (hc : c.surface.frame = none) (ops : List (Operation α)) :
    (c.after ops).surface.frame = (c.recorded.after ops).surface.accepted.getLast? := by
  obtain ⟨r, ⟨-, hframe⟩, he⟩ :=
    c.after_mirrors HeadlessSurface.answerAlike_accepted (t := ⟨c.surface, []⟩) ⟨rfl, hc⟩ ops
  rw [recorded, he, hframe]
  rfl

end Scatter

/-! ## Overview charts -/

namespace Overview

variable {c : Chart α (HeadlessSurface α)}

/-- The chart on a surface that writes the document of its frame. -/
def Chart.onSvg (c : Chart α (HeadlessSurface α)) (id : String) : Chart α SvgSurface :=
  c.on (.showing id c.surface)

theorem Chart.make?_svg (id : String) (config : Config α) :
    make? (SvgSurface.initial id) config
      = (make? (HeadlessSurface.initial : HeadlessSurface α) config).map (·.onSvg id) := by
  unfold make?
  cases config.validate <;> rfl

theorem Operation.perform_svg (op : Operation α) (c : Chart α (HeadlessSurface α)) (id : String) :
    op.perform (c.onSvg id) = ((op.perform c).1, (op.perform c).2.onSvg id) := by
  obtain ⟨_, rfl, he⟩ :=
    op.perform_mirrors (SvgSurface.answerAlike id) (c := c) (t := .showing id c.surface) rfl
  exact he

theorem Chart.after_svg (c : Chart α (HeadlessSurface α)) (id : String)
    (ops : List (Operation α)) : (c.onSvg id).after ops = (c.after ops).onSvg id := by
  obtain ⟨_, rfl, he⟩ :=
    c.after_mirrors (SvgSurface.answerAlike id) (t := .showing id c.surface) rfl ops
  exact he

/-- The chart on a surface that is recorded from now on. -/
def Chart.recorded (c : Chart α (HeadlessSurface α)) : Chart α (Recorder (HeadlessSurface α) α) :=
  c.on ⟨c.surface, []⟩

/-- The frame that is kept is the last one of the run that was accepted. -/
theorem Chart.frame_after (hc : c.surface.frame = none) (ops : List (Operation α)) :
    (c.after ops).surface.frame = (c.recorded.after ops).surface.accepted.getLast? := by
  obtain ⟨r, ⟨-, hframe⟩, he⟩ :=
    c.after_mirrors HeadlessSurface.answerAlike_accepted (t := ⟨c.surface, []⟩) ⟨rfl, hc⟩ ops
  rw [recorded, he, hframe]
  rfl

end Overview

/-! ## Runs -/

/-- **Charts do not depend on their surfaces.** Let a configuration be given to a chart that keeps
    its last frame and to one that writes it as a document, under any name.
    Both are accepted or refused alike; after any operations, whatever they returned, the charts
    are equal but for their surfaces, the document is that of the frame that is kept, and
    empty as long as there is none; the next operation has the same result on both; and the
    frame that is kept is the last one of the run that was accepted, whatever was refused
    since then. -/
theorem charts_alike_on_surfaces {α : Type} [Scalar α] (id : String) :
    (∀ config : Scatter.Config α,
      Scatter.Chart.make? (SvgSurface.initial id) config
        = (Scatter.Chart.make? (HeadlessSurface.initial : HeadlessSurface α) config).map
            (·.onSvg id) ∧
      ∀ c, Scatter.Chart.make? (HeadlessSurface.initial : HeadlessSurface α) config = .ok c →
        ∀ ops : List (Scatter.Operation α),
          (c.onSvg id).after ops = (c.after ops).onSvg id ∧
          (∀ op : Scatter.Operation α,
            (op.perform ((c.onSvg id).after ops)).1 = (op.perform (c.after ops)).1) ∧
          (c.after ops).surface.frame
            = (c.recorded.after ops).surface.accepted.getLast?) ∧
    (∀ config : Overview.Config α,
      Overview.Chart.make? (SvgSurface.initial id) config
        = (Overview.Chart.make? (HeadlessSurface.initial : HeadlessSurface α) config).map
            (·.onSvg id) ∧
      ∀ c, Overview.Chart.make? (HeadlessSurface.initial : HeadlessSurface α) config = .ok c →
        ∀ ops : List (Overview.Operation α),
          (c.onSvg id).after ops = (c.after ops).onSvg id ∧
          (∀ op : Overview.Operation α,
            (op.perform ((c.onSvg id).after ops)).1 = (op.perform (c.after ops)).1) ∧
          (c.after ops).surface.frame
            = (c.recorded.after ops).surface.accepted.getLast?) := by
  constructor
  · refine fun config => ⟨Scatter.Chart.make?_svg id config, fun c hc ops => ?_⟩
    have hsvg := c.after_svg id ops
    refine ⟨hsvg, fun op => ?_, Scatter.Chart.frame_after ?_ ops⟩
    · rw [hsvg, op.perform_svg]
    · rw [(Scatter.Chart.make?_eq_ok.1 hc).2]
      rfl
  · refine fun config => ⟨Overview.Chart.make?_svg id config, fun c hc ops => ?_⟩
    have hsvg := c.after_svg id ops
    refine ⟨hsvg, fun op => ?_, Overview.Chart.frame_after ?_ ops⟩
    · rw [hsvg, op.perform_svg]
    · rw [(Overview.Chart.make?_eq_ok.1 hc).2]
      rfl

/-- Points are refused if the offset of an axis is not a number; then both surfaces stay blank.
    Records are drawn on both. -/
theorem charts_alike_on_surfaces_refused :
    (∃ c, Scatter.Chart.make? (HeadlessSurface.initial : HeadlessSurface Float)
        { Scatter.Config.standard with yAxisOffset := Float.nan } = .ok c ∧
      let headless := c.after [.clear, .render .farApart]
      let svg := (c.onSvg "chart").after [.clear, .render .farApart]
      headless.surface.draws = 1 ∧ svg.surface = .showing "chart" headless.surface ∧
        (Scatter.Operation.toggleOutliers.perform svg).1.isOk = false) ∧
    (∃ c, Overview.Chart.make? (HeadlessSurface.initial : HeadlessSurface Rat) .standard = .ok c ∧
      let headless := c.after [.render [⟨⟨"7"⟩, ⟨12, 4, 0⟩⟩] .user]
      let svg := (c.onSvg "chart").after [.render [⟨⟨"7"⟩, ⟨12, 4, 0⟩⟩] .user]
      headless.surface.draws = 1 ∧ svg.surface = .showing "chart" headless.surface ∧
        (Overview.Operation.toggle.perform svg).1.isOk = true) := by
  constructor
  · have hvalid : Scatter.Config.validate
        { (Scatter.Config.standard : Scatter.Config Float) with yAxisOffset := Float.nan }
        = .ok () := by rfl
    have hc : Scatter.Chart.make? (HeadlessSurface.initial : HeadlessSurface Float)
        { (Scatter.Config.standard : Scatter.Config Float) with yAxisOffset := Float.nan }
        = .ok _ := Scatter.Chart.make?_eq_ok.2 ⟨hvalid, rfl⟩
    obtain ⟨hsvg, hop, -⟩ := ((charts_alike_on_surfaces "chart").1 _).2 _ hc
      [.clear, .render .farApart]
    refine ⟨_, hc, by decide +kernel, congrArg (·.surface) hsvg, ?_⟩
    rw [hop]
    decide +kernel
  · have hc := Overview.Chart.make?_standard_rat (HeadlessSurface.initial : HeadlessSurface Rat)
    obtain ⟨hsvg, hop, -⟩ := ((charts_alike_on_surfaces "chart").2 _).2 _ hc
      [.render [⟨⟨"7"⟩, ⟨12, 4, 0⟩⟩] .user]
    refine ⟨_, hc, by decide +kernel, congrArg (·.surface) hsvg, ?_⟩
    rw [hop]
    decide +kernel

end CourseCharts

/-
  CourseCharts — what charts do with responses.

  A response that can be read is shown, one that lacks a field clears the
  chart, and a flawed one is reported and changes nothing.

  * `Routed` says so of a response and what it leads to;
  * `Scatter.Chart.routed` and `Overview.Chart.routed`: both charts route responses
    so, on every surface that accepts the blank frame and reports no missing
    field;
  * `responses_are_routed`: so it is at any time, whatever was done with the chart
    before.
-/
import CourseCharts.Proofs.Drawing.Frame
import CourseCharts.Proofs.Drawing.Surface
import CourseCharts.Proofs.Failures
import CourseCharts.Proofs.Overview.Invariant
import CourseCharts.Proofs.Scatter.Toggle
import CourseCharts.Proofs.Scatter.ZoomStep

namespace CourseCharts

/-! ## Responses and their outcomes -/

section
variable {β γ : Type}

/-- What becomes of a response that is read as `read` by something in the state `c`: `shown` is
    what it does with what can be read, and `cleared` its state with nothing to show. -/
structure Routed (read : Except ChartError β) (c : γ) (shown : β → Except ChartError Unit × γ)
    (cleared : γ) (outcome : Except ChartError Unit × γ) : Prop where
  /-- The response can be read, lacks a field or has a flaw. -/
  cases : (∃ b, read = .ok b) ∨ (∃ field, read = .error (.missingData field)) ∨
    ∃ flaw, read = .error (.invalidData flaw)
  /-- What can be read is shown. -/
  readable : ∀ b, read = .ok b → outcome = shown b
  /-- Without a field there is nothing to show, and that is no error. -/
  missing : ∀ field, read = .error (.missingData field) → outcome = (.ok (), cleared)
  /-- A flaw is reported, and nothing changes. -/
  flawed : ∀ flaw, read = .error (.invalidData flaw) → outcome = (.error (.invalidData flaw), c)
  /-- A missing field is never reported. -/
  notMissing : FailsWith ChartError.NotMissing outcome.1

theorem Routed.of_cases {read : Except ChartError β} {c : γ}
    {shown : β → Except ChartError Unit × γ} {cleared : γ}
    {outcome : Except ChartError Unit × γ} (hread : FailsWith ChartError.OfResponse read)
    (hreadable : ∀ b, read = .ok b → outcome = shown b)
    (hshow : ∀ b, FailsWith ChartError.NotMissing (shown b).1)
    (hmissing : ∀ field, read = .error (.missingData field) → outcome = (.ok (), cleared))
    (hflawed : ∀ flaw, read = .error (.invalidData flaw) →
      outcome = (.error (.invalidData flaw), c)) : Routed read c shown cleared outcome := by
  have hcases : (∃ b, read = .ok b) ∨ (∃ field, read = .error (.missingData field)) ∨
      ∃ flaw, read = .error (.invalidData flaw) := by
    cases h : read with
    | ok b => exact .inl ⟨b, rfl⟩
    | error e =>
      obtain ⟨field, rfl⟩ | ⟨flaw, rfl⟩ := hread e h
      · exact .inr (.inl ⟨field, rfl⟩)
      · exact .inr (.inr ⟨flaw, rfl⟩)
  refine ⟨hcases, hreadable, hmissing, hflawed, ?_⟩
  obtain ⟨b, h⟩ | ⟨field, h⟩ | ⟨flaw, h⟩ := hcases
  · rw [hreadable b h]
    exact hshow b
  · rw [hmissing field h]
    exact failsWith_ok
  · rw [hflawed flaw h]
    exact failsWith_error.2 ChartError.isFlaw_invalidData.notMissing

end

/-! ## Surfaces -/

variable {α σ : Type} [Scalar α]

/-- The surface never reports a missing field. -/
def Surface.NotMissing (σ α : Type) [Surface σ α] : Prop :=
  ∀ (f : Frame α) (s : σ), FailsWith ChartError.NotMissing (Surface.draw f s).1

theorem HeadlessSurface.notMissing : Surface.NotMissing (HeadlessSurface α) α :=
  fun _ _ => drawValid_notMissing

theorem SvgSurface.notMissing : Surface.NotMissing SvgSurface α := fun _ _ => drawValid_notMissing

/-- The surface after a frame without shapes. -/
def HeadlessSurface.blanked (s : HeadlessSurface α) (v : Viewport) : HeadlessSurface α :=
  ⟨s.draws + 1, 0, some (.blank v)⟩

theorem HeadlessSurface.draw_blank {v : Viewport} (hv : v.validate = .ok ())
    (s : HeadlessSurface α) : Surface.draw (.blank v : Frame α) s = (.ok (), s.blanked v) :=
  draw_valid (Frame.blank_validate hv) s

/-- The surface after a frame without shapes, over numbers of `α`. -/
def SvgSurface.blanked (α : Type) [Scalar α] (s : SvgSurface) (v : Viewport) : SvgSurface :=
  { s with markup := (Svg.document s.id (.blank v : Frame α)).render }

theorem SvgSurface.draw_blank {v : Viewport} (hv : v.validate = .ok ()) (s : SvgSurface) :
    Surface.draw (.blank v : Frame α) s = (.ok (), s.blanked α v) :=
  draw_valid (Frame.blank_validate hv) s

/-! ## Charts -/

section
variable [Surface σ α] (hsurface : Surface.NotMissing σ α) (response : Json.Value)
  (grouping : Grouping) {blanked : σ}

include hsurface

namespace Scatter

theorem Chart.redraw_notMissing (c : Chart α σ) : FailsWith ChartError.NotMissing c.redraw.1 := by
  obtain ⟨-, he⟩ | ⟨d, -, -, ⟨e, hfit, he⟩ | ⟨base, p, -, he⟩⟩ := c.redraw_outcome
  · rw [he]
    exact hsurface _ _
  · rw [he]
    exact failsWith_error.2 (fails_fit? e hfit).notMissing
  · rw [he]
    exact hsurface _ _

/-- A response is routed; without a field nothing but the configuration and what is to be shown
    of outliers is kept. -/
theorem Chart.routed {c : Chart α σ}
    (hblank : Surface.draw (.blank c.config.viewport : Frame α) c.surface = (.ok (), blanked)) :
    Routed (Payload.ofValue response) c
      (fun p : Payload α => c.render ⟨p.points, p.info.xAxis, p.info.yAxis, grouping⟩)
      { c.reset with dataset := none, surface := blanked }
      (c.renderPayload response grouping) := by
  have hclear : c.clear = (.ok (), { c.reset with dataset := none, surface := blanked }) := by
    change Chart.draw (.blank c.config.viewport) { c.reset with dataset := none } = _
    simp only [draw, reset, hblank]
  refine .of_cases Payload.fails_ofValue ?_ (fun p => redraw_notMissing hsurface _) ?_ ?_
  · intro p hp
    simp only [renderPayload, hp]
  · intro field hfield
    simp only [renderPayload, hfield, hclear]
  · intro flaw hflaw
    simp only [renderPayload, hflaw]

end Scatter

namespace Overview

theorem Chart.render_notMissing (c : Chart α σ) (data : List Datum) :
    FailsWith ChartError.NotMissing (c.render data grouping).1 := by
  unfold render
  dsimp only
  split
  next => exact hsurface _ _
  next =>
    split
    next e hfit => exact failsWith_error.2 (fails_fit? e hfit).notMissing
    next => exact hsurface _ _

/-- A response is routed; without a field nothing but the configuration and the arrangement is
    kept. -/
theorem Chart.routed {c : Chart α σ}
    (hblank : Surface.draw (.blank c.config.viewport : Frame α) c.surface = (.ok (), blanked)) :
    Routed (Payload.ofValue response) c (fun data => c.render data grouping)
      { c with
        data := [], grouping, layout := none, geometry := [], animation := none
        surface := blanked }
      (c.renderPayload response grouping) := by
  refine .of_cases Payload.fails_ofValue ?_ (fun data => c.render_notMissing hsurface grouping data)
    ?_ ?_
  · intro data hdata
    simp only [renderPayload, hdata]
  · intro field hfield
    simp only [renderPayload, hfield, render, List.isEmpty_nil, if_true, draw, hblank]
  · intro flaw hflaw
    simp only [renderPayload, hflaw]

end Overview

end

/-! ## Runs -/

theorem Overview.Chart.viewport_after [Surface σ α] {surface : σ} {config : Config α}
    {c : Chart α σ} (hc : make? surface config = .ok c) (ops : List (Operation α)) :
    (c.after ops).config.viewport.validate = .ok () := by
  obtain ⟨hvalid, rfl⟩ := make?_eq_ok.1 hc
  simp only [Config.validate, Margins.validateIn, bind_eq_ok] at hvalid
  obtain ⟨_, ⟨_, hviewport, -⟩, -⟩ := hvalid
  rwa [config_after]

/-- **Responses are routed.** Whatever was done with a chart before, and whatever is sent, a chart
    on either surface does one of three things.
    A response that can be read is rendered.
    One that lacks a field succeeds and leaves nothing to see: no data, no layout or projection,
    no zoom, no animation, even if one was running, and a frame without shapes on the surface;
    whether outliers are shown and the arrangement of the bars stay as they are.
    A flawed one fails with its flaw and leaves chart and surface as they were, a running
    animation included.
    In no case is the missing field reported. -/
theorem responses_are_routed {α : Type} [Scalar α] (response : Json.Value) (grouping : Grouping) :
    (∀ {config : Scatter.Config α} (ops : List (Scatter.Operation α)),
      (∀ {surface : HeadlessSurface α} {c : Scatter.Chart α (HeadlessSurface α)},
        Scatter.Chart.make? surface config = .ok c →
        let c' := c.after ops
        Routed (Scatter.Payload.ofValue response) c'
          (fun p : Scatter.Payload α => c'.render ⟨p.points, p.info.xAxis, p.info.yAxis, grouping⟩)
          { c'.reset with dataset := none, surface := c'.surface.blanked c'.config.viewport }
          (c'.renderPayload response grouping)) ∧
      (∀ {surface : SvgSurface} {c : Scatter.Chart α SvgSurface},
        Scatter.Chart.make? surface config = .ok c →
        let c' := c.after ops
        Routed (Scatter.Payload.ofValue response) c'
          (fun p : Scatter.Payload α => c'.render ⟨p.points, p.info.xAxis, p.info.yAxis, grouping⟩)
          { c'.reset with dataset := none, surface := c'.surface.blanked α c'.config.viewport }
          (c'.renderPayload response grouping))) ∧
    (∀ {config : Overview.Config α} (ops : List (Overview.Operation α)),
      (∀ {surface : HeadlessSurface α} {c : Overview.Chart α (HeadlessSurface α)},
        Overview.Chart.make? surface config = .ok c →
        let c' := c.after ops
        Routed (Overview.Payload.ofValue response) c' (fun data => c'.render data grouping)
          { c' with
            data := [], grouping, layout := none, geometry := [], animation := none
            surface := c'.surface.blanked c'.config.viewport }
          (c'.renderPayload response grouping)) ∧
      (∀ {surface : SvgSurface} {c : Overview.Chart α SvgSurface},
        Overview.Chart.make? surface config = .ok c →
        let c' := c.after ops
        Routed (Overview.Payload.ofValue response) c' (fun data => c'.render data grouping)
          { c' with
            data := [], grouping, layout := none, geometry := [], animation := none
            surface := c'.surface.blanked α c'.config.viewport }
          (c'.renderPayload response grouping))) := by
  refine ⟨fun ops => ⟨fun hc => ?_, fun hc => ?_⟩, fun ops => ⟨fun hc => ?_, fun hc => ?_⟩⟩
  · have hviewport := (Scatter.Chart.accepted_after hc ops).viewport
    exact Scatter.Chart.routed HeadlessSurface.notMissing response grouping
      (HeadlessSurface.draw_blank hviewport _)
  · have hviewport := (Scatter.Chart.accepted_after hc ops).viewport
    exact Scatter.Chart.routed SvgSurface.notMissing response grouping
      (SvgSurface.draw_blank hviewport _)
  · exact Overview.Chart.routed HeadlessSurface.notMissing response grouping
      (HeadlessSurface.draw_blank (Overview.Chart.viewport_after hc ops) _)
  · exact Overview.Chart.routed SvgSurface.notMissing response grouping
      (SvgSurface.draw_blank (Overview.Chart.viewport_after hc ops) _)

/-- In the middle of an animation: without `chart-info` a scatter chart is cleared, and a number
    is no response for an overview chart. -/
theorem responses_are_routed_animated :
    (∃ c : Scatter.Chart Rat (HeadlessSurface Rat),
      Scatter.Chart.make? .initial Scatter.Config.standard = .ok c ∧
      let before := c.after [.render .threePoints, .zoomBy ⟨2, 0, 0⟩, .advance 100]
      let outcome := before.renderPayload (.object [("chart-data", .array [])]) .project
      before.animation.isSome = true ∧ outcome.1 = .ok () ∧ outcome.2.dataset = none ∧
        outcome.2.animation = none ∧ outcome.2.frame.isEmpty = true) ∧
    (∃ c : Overview.Chart Rat SvgSurface,
      Overview.Chart.make? (.initial "chart") Overview.Config.standard = .ok c ∧
      let before := c.after [.render [⟨⟨"7"⟩, ⟨12, 4, 0⟩⟩] .user, .toggle, .advance 300]
      before.animation.isSome = true ∧
        before.renderPayload (.string "7") .user
          = (.error (.invalidData .noRecordContainer), before)) := by
  constructor
  · have hc := Scatter.Chart.make?_standard_rat (HeadlessSurface.initial : HeadlessSurface Rat)
    have hrouted := ((responses_are_routed (.object [("chart-data", .array [])]) .project).1
      [.render .threePoints, .zoomBy ⟨2, 0, 0⟩, .advance 100]).1 hc
    have hcleared := hrouted.missing "chart-info" rfl
    refine ⟨_, hc, by decide +kernel, ?_⟩
    dsimp only at hcleared ⊢
    rw [hcleared]
    exact ⟨rfl, rfl, rfl, rfl⟩
  · have hc := Overview.Chart.make?_standard_rat (SvgSurface.initial "chart")
    have hrouted := ((responses_are_routed (.string "7") .user).2
      [.render [⟨⟨"7"⟩, ⟨12, 4, 0⟩⟩] .user, .toggle, .advance 300]).2 hc
    exact ⟨_, hc, by decide +kernel, hrouted.flawed .noRecordContainer rfl⟩

end CourseCharts

/-
  CourseCharts — the scatter chart.

  A `Chart` shows the assignments of a project or of a user on a surface.  It
  is redrawn for new data or when outliers are toggled; a zoom moves what is
  shown in an animation.

  Every operation gives a result together with the chart after it, since a
  failed operation may have changed the chart: toggling outliers does so even
  if the chart cannot be drawn then.  A zoom that fails before it is drawn
  changes nothing.
-/
import CourseCharts.Drawing.Surface
import CourseCharts.Motion.Transition
import CourseCharts.Scatter.Payload
import CourseCharts.Scatter.Picture

namespace CourseCharts.Scatter

/-- A scatter chart on a surface `σ`. -/
structure Chart (α σ : Type) where
  surface : σ
  config : Config α
  presentation : Presentation
  dataset : Option (Dataset α)
  /-- The scales before the zoom. -/
  base : Option (Scales α)
  zoom : Zoom α
  /-- What is shown, or what the animation leads to. -/
  projection : Option (Projection α)
  animation : Option (Transition (Projection α) α)

namespace Chart

variable {α σ : Type} [Scalar α]

/-- An empty chart. -/
def make? (surface : σ) (config : Config α) : Except ChartError (Chart α σ) := do
  config.validate
  return {
    surface, config, presentation := .standard, dataset := none, base := none,
    zoom := .identity, projection := none, animation := none }

/-! ## What is shown -/

/-- Whether outliers are shown. -/
def showOutliers (c : Chart α σ) : Bool := c.presentation.showOutliers

/-- The scales under the zoom. -/
def currentScales (c : Chart α σ) : Except ChartError (Option (Scales α)) :=
  match c.base with
  | none => .ok none
  | some s => (s.zoomed? c.zoom).map some

/-- The projection at this moment of the animation. -/
def shown (c : Chart α σ) : Option (Projection α) :=
  match c.animation with
  | some a => some a.current
  | none => c.projection

/-- The frame of a projection of the data. -/
def frameOf (c : Chart α σ) (p : Projection α) : Frame α :=
  match c.dataset with
  | some d => d.frame c.config c.showOutliers p
  | none => .blank c.config.viewport

/-- The frame of what is shown. -/
def frame (c : Chart α σ) : Frame α :=
  match c.shown with
  | some p => c.frameOf p
  | none => .blank c.config.viewport

/-! ## Drawing -/

variable [Surface σ α]

/-- Shows a frame on the surface. -/
def draw (f : Frame α) (c : Chart α σ) : Except ChartError Unit × Chart α σ :=
  let (result, surface) := Surface.draw f c.surface
  (result, { c with surface })

/-- The scales and the projection that fit the data. -/
def fit? (c : Chart α σ) (d : Dataset α) : Except ChartError (Scales α × Projection α) := do
  let scales ← Scales.fit? d.points c.showOutliers c.config.plotArea
  let p ← Projection.ofPoints? d.points scales c.showOutliers c.config.xTickCount
    c.config.yTickCount
  return (scales, p)

/-- Nothing is zoomed, animated or projected. -/
def reset (c : Chart α σ) : Chart α σ :=
  { c with zoom := .identity, animation := none, base := none, projection := none }

/-- Draws the data from scratch; without points nothing is shown. -/
def redraw (c : Chart α σ) : Except ChartError Unit × Chart α σ :=
  let c := c.reset
  match c.dataset with
  | none => c.draw (.blank c.config.viewport)
  | some d =>
    if d.points.isEmpty then c.draw (.blank c.config.viewport)
    else
      match c.fit? d with
      | .error e => (.error e, c)
      | .ok (scales, p) =>
        let c := { c with base := some scales, projection := some p }
        c.draw (c.frameOf p)

/-! ## Data -/

/-- Shows a dataset. -/
def render (d : Dataset α) (c : Chart α σ) : Except ChartError Unit × Chart α σ :=
  redraw { c with dataset := some d }

/-- Shows nothing. -/
def clear (c : Chart α σ) : Except ChartError Unit × Chart α σ :=
  redraw { c with dataset := none }

/-- Shows a response; one that lacks a field shows nothing. -/
def renderPayload (v : Json.Value) (grouping : Grouping) (c : Chart α σ) :
    Except ChartError Unit × Chart α σ :=
  match Payload.ofValue v with
  | .ok p => c.render ⟨p.points, p.info.xAxis, p.info.yAxis, grouping⟩
  | .error (.missingData _) => c.clear
  | .error e => (.error e, c)

/-! ## Interaction -/

/-- Shows or hides outliers; gives whether they are shown now. -/
def toggleOutliers (c : Chart α σ) : Except ChartError Bool × Chart α σ :=
  let c := { c with presentation := c.presentation.toggleOutliers }
  let (result, c') := c.redraw
  (result.map fun _ => c.showOutliers, c')

/-- Reacts to a click. -/
def handle (input : UserInput) (c : Chart α σ) : Except ChartError Unit × Chart α σ :=
  match input with
  | .outlierCheckbox =>
    let (result, c) := c.toggleOutliers
    (result.map fun _ => (), c)
  | .chartBody => (.ok (), c)

/-- Moves the animation to a time since its start and draws it; gives whether
    it goes on. -/
def advance (time : α) (c : Chart α σ) : Except ChartError Bool × Chart α σ :=
  match c.animation with
  | none => (.ok false, c)
  | some a =>
    let a := a.advance time
    let c := { c with animation := if a.isFinished then none else some a }
    let (result, c) := c.draw (c.frameOf a.current)
    (result.map fun _ => !a.isFinished, c)

/-- Moves the animation to its end. -/
def finish (c : Chart α σ) : Except ChartError Unit × Chart α σ :=
  match c.animation with
  | none => (.ok (), c)
  | some a =>
    let (result, c) := c.advance a.duration
    (result.map fun _ => (), c)

/-- What a zoom step leads to: the zoom, the projection under it, and the
    animation from what is shown. -/
def zoomStep? (delta : Zoom α) (c : Chart α σ) (d : Dataset α) (base : Scales α)
    (shown : List (Marker α)) :
    Except ChartError (Zoom α × Projection α × Transition (Projection α) α) := do
  let previous ← base.zoomed? c.zoom
  let zoom := c.zoom.andThen delta
  let scales ← base.zoomed? zoom
  let target ← Projection.ofPoints? d.points scales c.showOutliers c.config.xTickCount
    c.config.yTickCount
  let start ← target.rebased? shown previous
  let animation ← Transition.make? start target c.config.zoomDuration c.config.zoomEasing
  return (zoom, target, animation)

/-- Zooms what is shown, in an animation; an empty chart stays as it is. -/
def zoomBy (delta : Zoom α) (c : Chart α σ) : Except ChartError Unit × Chart α σ :=
  match delta.validate with
  | .error e => (.error e, c)
  | .ok () =>
    match c.dataset, c.base, c.projection, c.shown with
    | some d, some base, some _, some shown =>
      match c.zoomStep? delta d base shown.markers with
      | .error e => (.error e, c)
      | .ok (zoom, target, animation) =>
        let c := { c with zoom, projection := some target, animation := some animation }
        let (result, c) := c.advance 0.0
        (result.map fun _ => (), c)
    | _, _, _, _ => (.ok (), c)

end Chart

end CourseCharts.Scatter

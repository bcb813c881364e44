/-
  CourseCharts — the overview chart.

  A `Chart` shows the activity of projects or users as bars on a surface.  A
  click changes the arrangement of the bars, which move there in an animation
  from where they are.

  Every operation gives a result together with the chart after it, since a
  failed operation may have changed the chart.
-/
import CourseCharts.Drawing.Surface
import CourseCharts.Motion.Transition
import CourseCharts.Overview.Payload
import CourseCharts.Overview.Picture

namespace CourseCharts.Overview

/-- An overview chart on a surface `σ`. -/
structure Chart (α σ : Type) where
  surface : σ
  config : Config α
  presentation : Presentation
  data : List Datum
  grouping : Grouping
  layout : Option (Layout α)
  /-- Where the bars are, or where the animation takes them. -/
  geometry : List (EntityGeometry α)
  animation : Option (Transition (List (EntityGeometry α)) α)

namespace Chart

variable {α σ : Type} [Scalar α]

/-- An empty chart. -/
def make? (surface : σ) (config : Config α) : Except ChartError (Chart α σ) := do
  config.validate
  return {
    surface, config, presentation := ⟨false, config.initialArrangement⟩, data := [],
    grouping := .project, layout := none, geometry := [], animation := none }

/-! ## What is shown -/

/-- The arrangement of the bars. -/
def arrangement (c : Chart α σ) : Arrangement := c.presentation.arrangement

/-- The geometry at this moment of the animation. -/
def shown (c : Chart α σ) : List (EntityGeometry α) :=
  match c.animation with
  | some a => a.current
  | none => c.geometry

/-- The frame of the records with the given geometry. -/
def frameOf (c : Chart α σ) (es : List (EntityGeometry α)) : Frame α :=
  match c.layout with
  | none => .blank c.config.viewport
  | some l => Picture.frame ⟨c.data, c.grouping, l.bands.centers⟩ c.config es

/-- The frame of what is shown. -/
def frame (c : Chart α σ) : Frame α := c.frameOf c.shown

/-! ## Drawing -/

variable [Surface σ α]

/-- Shows a frame on the surface. -/
def draw (f : Frame α) (c : Chart α σ) : Except ChartError Unit × Chart α σ :=
  let (result, surface) := Surface.draw f c.surface
  (result, { c with surface })

/-- The layout and the geometry of the records. -/
def fit? (c : Chart α σ) (data : List Datum) :
    Except ChartError (Layout α × List (EntityGeometry α)) := do
  let l ← Layout.make? data c.config.plotArea c.config.groupBuffer c.config.labelGap
  return (l, ← l.geometry? c.arrangement data)

/-- Shows some records; without any, nothing is shown. -/
def render (data : List Datum) (grouping : Grouping) (c : Chart α σ) :
    Except ChartError Unit × Chart α σ :=
  let c := { c with data, grouping, layout := none, geometry := [], animation := none }
  if data.isEmpty then c.draw (.blank c.config.viewport)
  else
    match c.fit? data with
    | .error e => (.error e, c)
    | .ok (l, geometry) =>
      let c := { c with layout := some l, geometry }
      c.draw (c.frameOf geometry)

/-- Shows a response; one that lacks a field shows nothing. -/
def renderPayload (v : Json.Value) (grouping : Grouping) (c : Chart α σ) :
    Except ChartError Unit × Chart α σ :=
  match Payload.ofValue v with
  | .ok data => c.render data grouping
  | .error (.missingData _) => c.render [] grouping
  | .error e => (.error e, c)

/-! ## Interaction -/

/-- Moves the animation to a time since its start and draws it; gives whether
    it goes on. -/
def advance (time : α) (c : Chart α σ) : Except ChartError Bool × Chart α σ :=
  match c.animation with
  | none => (.ok false, c)
  | some a =>
    let a := a.advance time
    let c := { c with animation := if a.isFinished then none else some a }
    let (result, c) := c.draw (c.frameOf a.current)
    (result.map fun _ => !a.isFinished, c)

/-- Moves the animation to its end. -/
def finish (c : Chart α σ) : Except ChartError Unit × Chart α σ :=
  match c.animation with
  | none => (.ok (), c)
  | some a =>
    let (result, c) := c.advance a.duration
    (result.map fun _ => (), c)

/-- What a change of the arrangement leads to: the geometry in the new one, and
    the animation from what is shown. -/
def arrange? (c : Chart α σ) (l : Layout α) :
    Except ChartError
      (List (EntityGeometry α) × Transition (List (EntityGeometry α)) α) := do
  let target ← l.geometry? c.arrangement c.data
  let animation ← Transition.make? c.shown target c.config.toggleDuration c.config.toggleEasing
  return (target, animation)

/-- Changes the arrangement, in an animation; gives the new arrangement. -/
def toggle (c : Chart α σ) : Except ChartError Arrangement × Chart α σ :=
  let c := { c with presentation := c.presentation.toggleArrangement }
  match c.layout with
  | none => (.ok c.arrangement, c)
  | some l =>
    match c.arrange? l with
    | .error e => (.error e, c)
    | .ok (geometry, animation) =>
      let c := { c with geometry, animation := some animation }
      let (result, c') := c.advance 0.0
      (result.map fun _ => c.arrangement, c')

/-- Reacts to a click. -/
def handle (input : UserInput) (c : Chart α σ) : Except ChartError Unit × Chart α σ :=
  match input with
  | .chartBody =>
    let (result, c) := c.toggle
    (result.map fun _ => (), c)
  | .outlierCheckbox => (.ok (), c)

end Chart

end CourseCharts.Overview

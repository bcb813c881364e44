/-
  CourseCharts — the configuration of a scatter chart.

  * `Config.standard` has the defaults, which are named one by one;
  * `Config.validate` is passed by the configurations a chart accepts;
  * `Config.ofText?` reads a JSON text, where every field may be left out.
-/
import CourseCharts.Json.Settings

namespace CourseCharts.Scatter

/-- The settings of a scatter chart; lengths are in pixels, times in
    milliseconds. -/
structure Config (α : Type) where
  viewport : Viewport
  margins : Margins α
  markerRadius : α
  xTickCount : Nat
  yTickCount : Nat
  /-- The distance from the plot to the axis on its right. -/
  yAxisOffset : α
  /-- How far markers may stick out of the plot. -/
  clipPadding : α
  captionFontSize : α
  tickFontSize : α
  titleFontSize : α
  zoomDuration : α
  zoomEasing : Easing
  /-- What a link to a submission starts with; the key follows. -/
  submissionLinkBase : String
  deriving Repr

namespace Config

variable {α : Type} [Scalar α]

/-! ## Defaults -/

/-- The size of the chart, if none is given. -/
def defaultViewport : Viewport := ⟨1100, 480⟩

/-- The radius of markers, if none is given. -/
def defaultMarkerRadius : α := 5.0

/-- The number of ticks to aim at below the plot, if none is given. -/
def defaultXTickCount : Nat := 7

/-- The number of ticks to aim at beside the plot, if none is given. -/
def defaultYTickCount : Nat := 5

/-- The distance of the axis on the right, if none is given. -/
def defaultYAxisOffset : α := 25.0

/-- How far markers may stick out, if it is not given. -/
def defaultClipPadding : α := 10.0

/-- The size of captions, if none is given. -/
def defaultCaptionFontSize : α := 10.0

/-- The duration of a zoom, if none is given. -/
def defaultZoomDuration : α := 1000.0

/-- The easing of a zoom, if none is given. -/
def defaultZoomEasing : Easing := .linear

/-- What a link starts with, if nothing is given. -/
def defaultSubmissionLinkBase : String := "getsubmissions?assignment-id="

/-- The configuration where nothing is given. -/
def standard : Config α where
  viewport := defaultViewport
  margins := .standard
  markerRadius := defaultMarkerRadius
  xTickCount := defaultXTickCount
  yTickCount := defaultYTickCount
  yAxisOffset := defaultYAxisOffset
  clipPadding := defaultClipPadding
  captionFontSize := defaultCaptionFontSize
  tickFontSize := defaultTickFontSize
  titleFontSize := defaultTitleFontSize
  zoomDuration := defaultZoomDuration
  zoomEasing := defaultZoomEasing
  submissionLinkBase := defaultSubmissionLinkBase

/-! ## Use -/

/-- The place of the plot. -/
def plotArea (c : Config α) : PlotArea α := .within c.viewport c.margins

/-- The first setting that cannot be used gives the error. -/
def validate (c : Config α) : Except ChartError Unit := do
  c.margins.validateIn c.viewport
  Quantity.markerRadius.require .positive [c.markerRadius]
  Quantity.captionFontSize.require .positive [c.captionFontSize]
  Quantity.tickFontSize.require .positive [c.tickFontSize]
  Quantity.titleFontSize.require .positive [c.titleFontSize]
  Quantity.zoomDuration.require .nonnegative [c.zoomDuration]
  Quantity.clipPadding.require .nonnegative [c.clipPadding]
  Flaw.noTicks.unless (c.xTickCount != 0 && c.yTickCount != 0)

/-- Where a click on the marker of a key leads. -/
def submissionLink (c : Config α) (key : String) : String := c.submissionLinkBase ++ key

/-! ## JSON -/

open Json in
/-- The given fields, and the default of every other field. -/
def read? {τ : Type} [Readable τ] (t : τ) : Option (Config α) := do
  let fs ← record? ["viewport", "margins", "marker_radius_px", "x_tick_count", "y_tick_count",
    "y_axis_offset_px", "clip_padding_px", "caption_font_px", "tick_font_px", "title_font_px",
    "zoom_duration_ms", "zoom_easing", "submission_link_base"] t
  return {
    viewport := ← fs.orDefault? "viewport" defaultViewport Viewport.read?
    margins := ← fs.orDefault? "margins" .standard Margins.read?
    markerRadius := ← fs.orDefault? "marker_radius_px" defaultMarkerRadius scalar?
    xTickCount := ← fs.orDefault? "x_tick_count" defaultXTickCount count64?
    yTickCount := ← fs.orDefault? "y_tick_count" defaultYTickCount count64?
    yAxisOffset := ← fs.orDefault? "y_axis_offset_px" defaultYAxisOffset scalar?
    clipPadding := ← fs.orDefault? "clip_padding_px" defaultClipPadding scalar?
    captionFontSize := ← fs.orDefault? "caption_font_px" defaultCaptionFontSize scalar?
    tickFontSize := ← fs.orDefault? "tick_font_px" defaultTickFontSize scalar?
    titleFontSize := ← fs.orDefault? "title_font_px" defaultTitleFontSize scalar?
    zoomDuration := ← fs.orDefault? "zoom_duration_ms" defaultZoomDuration scalar?
    zoomEasing := ← fs.orDefault? "zoom_easing" defaultZoomEasing Easing.read?
    submissionLinkBase := ← fs.orDefault? "submission_link_base" defaultSubmissionLinkBase text? }

open Json in
/-- The configuration with all its fields. -/
def write (c : Config Float) : Value :=
  .object [("viewport", c.viewport.write), ("margins", c.margins.write),
    ("marker_radius_px", .ofScalar c.markerRadius), ("x_tick_count", .ofNat c.xTickCount),
    ("y_tick_count", .ofNat c.yTickCount), ("y_axis_offset_px", .ofScalar c.yAxisOffset),
    ("clip_padding_px", .ofScalar c.clipPadding),
    ("caption_font_px", .ofScalar c.captionFontSize),
    ("tick_font_px", .ofScalar c.tickFontSize), ("title_font_px", .ofScalar c.titleFontSize),
    ("zoom_duration_ms", .ofScalar c.zoomDuration), ("zoom_easing", .string c.zoomEasing.name),
    ("submission_link_base", .string c.submissionLinkBase)]

/-- The configuration of a JSON text, if it is valid. -/
def ofText? (text : String) : Except ChartError (Config α) :=
  match (Json.Document.ofText? text).bind read? with
  | none => .error (.invalidData .unreadableScatterConfig)
  | some c => do
    c.validate
    return c

end Config

end CourseCharts.Scatter

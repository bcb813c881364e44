/-
  CourseCharts — the configuration of an overview chart.

  * `Config.standard` has the defaults, which are named one by one;
  * `Config.validate` is passed by the configurations a chart accepts;
  * `Config.ofText?` reads a JSON text, where every field may be left out.
-/
import CourseCharts.Json.Settings
import CourseCharts.Record

namespace CourseCharts.Overview

/-- The settings of an overview chart; lengths are in pixels, times in
    milliseconds. -/
structure Config (α : Type) where
  viewport : Viewport
  margins : Margins α
  /-- The space at both sides of a band. -/
  groupBuffer : α
  /-- The space between a bar and its count. -/
  labelGap : α
  labelFontSize : α
  tickFontSize : α
  titleFontSize : α
  legendFontSize : α
  toggleDuration : α
  toggleEasing : Easing
  initialArrangement : Arrangement
  /-- What a link to a project starts with; the key follows. -/
  projectLinkBase : String
  /-- What a link to a user starts with; the key follows. -/
  userLinkBase : String
  deriving Repr

namespace Config

variable {α : Type} [Scalar α]

/-! ## Defaults -/

/-- The size of the chart, if none is given. -/
def defaultViewport : Viewport := ⟨1100, 500⟩

/-- The space at both sides of a band, if none is given. -/
def defaultGroupBuffer : α := 5.0

/-- The space between a bar and its count, if none is given. -/
def defaultLabelGap : α := 2.0

/-- The size of counts, if none is given. -/
def defaultLabelFontSize : α := 9.0

/-- The size of the texts of the legend, if none is given. -/
def defaultLegendFontSize : α := 12.0

/-- The duration of a toggle, if none is given. -/
def defaultToggleDuration : α := 1500.0

/-- The easing of a toggle, if none is given. -/
def defaultToggleEasing : Easing := .quadInOut

/-- The arrangement to start with, if none is given. -/
def defaultArrangement : Arrangement := .stacked

/-- What a link to a project starts with, if nothing is given. -/
def defaultProjectLinkBase : String := "getassignments?project-id="

/-- What a link to a user starts with, if nothing is given. -/
def defaultUserLinkBase : String := "getassignments?user-id="

/-- The configuration where nothing is given. -/
def standard : Config α where
  viewport := defaultViewport
  margins := .standard
  groupBuffer := defaultGroupBuffer
  labelGap := defaultLabelGap
  labelFontSize := defaultLabelFontSize
  tickFontSize := defaultTickFontSize
  titleFontSize := defaultTitleFontSize
  legendFontSize := defaultLegendFontSize
  toggleDuration := defaultToggleDuration
  toggleEasing := defaultToggleEasing
  initialArrangement := defaultArrangement
  projectLinkBase := defaultProjectLinkBase
  userLinkBase := defaultUserLinkBase

/-! ## Use -/

/-- The place of the plot. -/
def plotArea (c : Config α) : PlotArea α := .within c.viewport c.margins

/-- The first setting that cannot be used gives the error. -/
def validate (c : Config α) : Except ChartError Unit := do
  c.margins.validateIn c.viewport
  Quantity.groupBuffer.require .nonnegative [c.groupBuffer]
  Quantity.labelGap.require .nonnegative [c.labelGap]
  Quantity.labelFontSize.require .positive [c.labelFontSize]
  Quantity.tickFontSize.require .positive [c.tickFontSize]
  Quantity.titleFontSize.require .positive [c.titleFontSize]
  Quantity.legendFontSize.require .positive [c.legendFontSize]
  Quantity.toggleDuration.require .nonnegative [c.toggleDuration]

/-- Where a click on a bar of a key leads. -/
def entityLink (c : Config α) (grouping : Grouping) (key : String) : String :=
  match grouping with
  | .project => c.projectLinkBase ++ key
  | .user => c.userLinkBase ++ key

/-! ## JSON -/

open Json in
/-- The given fields, and the default of every other field. -/
def read? {τ : Type} [Readable τ] (t : τ) : Option (Config α) := do
  let fs ← record? ["viewport", "margins", "group_buffer_px", "label_gap_px", "label_font_px",
    "tick_font_px", "title_font_px", "legend_font_px", "toggle_duration_ms", "toggle_easing",
    "initial_layout", "project_link_base", "user_link_base"] t
  return {
    viewport := ← fs.orDefault? "viewport" defaultViewport Viewport.read?
    margins := ← fs.orDefault? "margins" .standard Margins.read?
    groupBuffer := ← fs.orDefault? "group_buffer_px" defaultGroupBuffer scalar?
    labelGap := ← fs.orDefault? "label_gap_px" defaultLabelGap scalar?
    labelFontSize := ← fs.orDefault? "label_font_px" defaultLabelFontSize scalar?
    tickFontSize := ← fs.orDefault? "tick_font_px" defaultTickFontSize scalar?
    titleFontSize := ← fs.orDefault? "title_font_px" defaultTitleFontSize scalar?
    legendFontSize := ← fs.orDefault? "legend_font_px" defaultLegendFontSize scalar?
    toggleDuration := ← fs.orDefault? "toggle_duration_ms" defaultToggleDuration scalar?
    toggleEasing := ← fs.orDefault? "toggle_easing" defaultToggleEasing Easing.read?
    initialArrangement :=
      ← fs.orDefault? "initial_layout" defaultArrangement Arrangement.read?
    projectLinkBase := ← fs.orDefault? "project_link_base" defaultProjectLinkBase text?
    userLinkBase := ← fs.orDefault? "user_link_base" defaultUserLinkBase text? }

open Json in
/-- The configuration with all its fields. -/
def write (c : Config Float) : Value :=
  .object [("viewport", c.viewport.write), ("margins", c.margins.write),
    ("group_buffer_px", .ofScalar c.groupBuffer), ("label_gap_px", .ofScalar c.labelGap),
    ("label_font_px", .ofScalar c.labelFontSize), ("tick_font_px", .ofScalar c.tickFontSize),
    ("title_font_px", .ofScalar c.titleFontSize),
    ("legend_font_px", .ofScalar c.legendFontSize),
    ("toggle_duration_ms", .ofScalar c.toggleDuration),
    ("toggle_easing", .string c.toggleEasing.name),
    ("initial_layout", .string c.initialArrangement.name),
    ("project_link_base", .string c.projectLinkBase),
    ("user_link_base", .string c.userLinkBase)]

/-- The configuration of a JSON text, if it is valid. -/
def ofText? (text : String) : Except ChartError (Config α) :=
  match (Json.Document.ofText? text).bind read? with
  | none => .error (.invalidData .unreadableOverviewConfig)
  | some c => do
    c.validate
    return c

end Config

end CourseCharts.Overview

/-
  CourseCharts — saved charts.

  The records that a chart is computed from and with can be saved as JSON and
  read again, one by one: `read?` reads what `write` writes.  Reading checks
  the form of a record but not its values.
-/
import CourseCharts.Overview.Layout
import CourseCharts.Request.Sequencer
import CourseCharts.Scatter.Projection
import CourseCharts.Scatter.Tooltip

namespace CourseCharts

open Json

variable {τ α : Type} [Readable τ] [Scalar α]

/-! ## Places and scales -/

/-- The place of a plot. -/
def PlotArea.read? (t : τ) : Option (PlotArea α) := do
  let fs ← record? ["left", "top", "width", "height"] t
  return ⟨← fs.required? "left" scalar?, ← fs.required? "top" scalar?,
    ← fs.required? "width" scalar?, ← fs.required? "height" scalar?⟩

/-- The place of a plot, written. -/
def PlotArea.write (p : PlotArea Float) : Value :=
  .record [("left", p.left), ("top", p.top), ("width", p.width), ("height", p.height)]

/-- An extent. -/
def Extent.read? (t : τ) : Option (Extent α) := do
  let fs ← record? ["min", "max"] t
  return ⟨← fs.required? "min" scalar?, ← fs.required? "max" scalar?⟩

/-- An extent, written. -/
def Extent.write (e : Extent Float) : Value := .record [("min", e.min), ("max", e.max)]

/-- A linear scale. -/
def LinearScale.read? (t : τ) : Option (LinearScale α) := do
  let fs ← record? ["domain_start", "domain_end", "range_start", "range_end"] t
  return ⟨← fs.required? "domain_start" scalar?, ← fs.required? "domain_end" scalar?,
    ← fs.required? "range_start" scalar?, ← fs.required? "range_end" scalar?⟩

/-- A linear scale, written. -/
def LinearScale.write (s : LinearScale Float) : Value :=
  .record [("domain_start", s.domainStart), ("domain_end", s.domainEnd),
    ("range_start", s.rangeStart), ("range_end", s.rangeEnd)]

/-- The name of a direction. -/
def Direction.name : Direction → String
  | x => "X"
  | y => "Y"

/-- A direction by its name. -/
def Direction.read? : τ → Option Direction := variant? ([.x, .y].map fun d => (d.name, d))

/-- A zoom. -/
def Zoom.read? (t : τ) : Option (Zoom α) := do
  let fs ← record? ["k", "x", "y"] t
  return ⟨← fs.required? "k" scalar?, ← fs.required? "x" scalar?, ← fs.required? "y" scalar?⟩

/-- A zoom, written. -/
def Zoom.write (z : Zoom Float) : Value := .record [("k", z.factor), ("x", z.x), ("y", z.y)]

/-! ## Choices -/

/-- A grouping by its name. -/
def Grouping.read? : τ → Option Grouping :=
  variant? ([.project, .user].map fun g => (g.name, g))

/-- The label of an axis; the unit may be left out. -/
def AxisLabel.read? (t : τ) : Option AxisLabel := do
  let fs ← record? ["label", "unit"] t
  return ⟨← fs.required? "label" text?, ← fs.orDefault? "unit" "" text?⟩

/-- The label of an axis, written. -/
def AxisLabel.write (a : AxisLabel) : Value :=
  .object [("label", .string a.label), ("unit", .string a.unit)]

/-- The choices of the user. -/
def Presentation.read? (t : τ) : Option Presentation := do
  let fs ← record? ["show_outliers", "layout_mode"] t
  return ⟨← fs.required? "show_outliers" bool?, ← fs.required? "layout_mode" Arrangement.read?⟩

/-- The choices of the user, written. -/
def Presentation.write (p : Presentation) : Value :=
  .object [("show_outliers", .bool p.showOutliers), ("layout_mode", .string p.arrangement.name)]

/-- The name of a click. -/
def UserInput.name : UserInput → String
  | outlierCheckbox => "OutlierCheckboxClicked"
  | chartBody => "ChartBodyClicked"

/-- A click by its name. -/
def UserInput.read? : τ → Option UserInput :=
  variant? ([.outlierCheckbox, .chartBody].map fun i => (i.name, i))

/-- The number of a request. -/
def Request.Token.read? (t : τ) : Option Request.Token := (count64? t).map Request.Token.mk

/-! ## Scatter charts -/

namespace Scatter

/-- A row of a tooltip. -/
def TooltipRow.read? (t : τ) : Option TooltipRow := do
  let fs ← record? ["label", "value"] t
  return ⟨← fs.required? "label" text?, ← fs.required? "value" text?⟩

/-- A row of a tooltip, written. -/
def TooltipRow.write (r : TooltipRow) : Value :=
  .object [("label", .string r.label), ("value", .string r.value)]

/-- The two rows of a tooltip. -/
def TooltipRow.pair? (t : τ) : Option (TooltipRow × TooltipRow) := do
  match ← list? TooltipRow.read? t with
  | [a, b] => return (a, b)
  | _ => none

/-- A tooltip. -/
def Tooltip.read? (t : τ) : Option Tooltip := do
  let fs ← record? ["heading", "rows"] t
  let heading ← fs.required? "heading" text?
  let (first, second) ← fs.required? "rows" TooltipRow.pair?
  return ⟨heading, first, second⟩

/-- A tooltip, written. -/
def Tooltip.write (t : Tooltip) : Value :=
  .object [("heading", .string t.heading), ("rows", .array [t.first.write, t.second.write])]

/-- The scales of both directions. -/
def Scales.read? (t : τ) : Option (Scales α) := do
  let fs ← record? ["x", "y"] t
  return ⟨← fs.required? "x" LinearScale.read?, ← fs.required? "y" LinearScale.read?⟩

/-- The scales of both directions, written. -/
def Scales.write (s : Scales Float) : Value := .object [("x", s.x.write), ("y", s.y.write)]

/-- A marker. -/
def Marker.read? (t : τ) : Option (Marker α) := do
  let fs ← record? ["x", "y"] t
  return ⟨← fs.required? "x" scalar?, ← fs.required? "y" scalar?⟩

/-- A marker, written. -/
def Marker.write (m : Marker Float) : Value := .record [("x", m.x), ("y", m.y)]

/-- A tick. -/
def AxisTick.read? (t : τ) : Option (AxisTick α) := do
  let fs ← record? ["value", "position"] t
  return ⟨← fs.required? "value" scalar?, ← fs.required? "position" scalar?⟩

/-- A tick, written. -/
def AxisTick.write (t : AxisTick Float) : Value :=
  .record [("value", t.value), ("position", t.position)]

/-- A projection. -/
def Projection.read? (t : τ) : Option (Projection α) := do
  let fs ← record? ["markers", "x_ticks", "y_ticks", "x_precision", "y_precision"] t
  return {
    markers := ← fs.required? "markers" (list? Marker.read?)
    xTicks := ← fs.required? "x_ticks" (list? AxisTick.read?)
    yTicks := ← fs.required? "y_ticks" (list? AxisTick.read?)
    xPrecision := ← fs.required? "x_precision" count32?
    yPrecision := ← fs.required? "y_precision" count32? }

/-- A projection, written. -/
def Projection.write (p : Projection Float) : Value :=
  .object [("markers", .array (p.markers.map Marker.write)),
    ("x_ticks", .array (p.xTicks.map AxisTick.write)),
    ("y_ticks", .array (p.yTicks.map AxisTick.write)),
    ("x_precision", .ofNat p.xPrecision), ("y_precision", .ofNat p.yPrecision)]

end Scatter

/-! ## Overview charts -/

namespace Overview

/-- A category by its name. -/
def Category.read? : τ → Option Category := variant? (Category.all.map fun c => (c.title, c))

/-- One thing for each category, as an array of three. -/
def PerCategory.read? {β : Type} (read : τ → Option β) (t : τ) : Option (PerCategory β) := do
  match ← list? read t with
  | [a, b, c] => return ⟨a, b, c⟩
  | _ => none

/-- One thing for each category, written as an array of three. -/
def PerCategory.write {β : Type} (write : β → Value) (p : PerCategory β) : Value :=
  .array (p.toList.map write)

/-- A bar. -/
def Bar.read? (t : τ) : Option (Bar α) := do
  let fs ← record? ["x", "y", "width", "height"] t
  return ⟨← fs.required? "x" scalar?, ← fs.required? "y" scalar?,
    ← fs.required? "width" scalar?, ← fs.required? "height" scalar?⟩

/-- A bar, written. -/
def Bar.write (b : Bar Float) : Value :=
  .record [("x", b.x), ("y", b.y), ("width", b.width), ("height", b.height)]

/-- The place of a count. -/
def LabelAnchor.read? (t : τ) : Option (LabelAnchor α) := do
  let fs ← record? ["x", "y"] t
  return ⟨← fs.required? "x" scalar?, ← fs.required? "y" scalar?⟩

/-- The place of a count, written. -/
def LabelAnchor.write (a : LabelAnchor Float) : Value := .record [("x", a.x), ("y", a.y)]

/-- The geometry of a record. -/
def EntityGeometry.read? (t : τ) : Option (EntityGeometry α) := do
  let fs ← record? ["bars", "labels"] t
  return ⟨← fs.required? "bars" (PerCategory.read? Bar.read?),
    ← fs.required? "labels" (PerCategory.read? LabelAnchor.read?)⟩

/-- The geometry of a record, written. -/
def EntityGeometry.write (e : EntityGeometry Float) : Value :=
  .object [("bars", e.bars.write Bar.write), ("labels", e.labels.write LabelAnchor.write)]

/-- The domains of the categories. -/
def CategoryDomains.read? (t : τ) : Option (CategoryDomains α) := do
  let fs ← record? ["maxima"] t
  return ⟨← fs.required? "maxima" (PerCategory.read? scalar?)⟩

/-- The domains of the categories, written. -/
def CategoryDomains.write (d : CategoryDomains Float) : Value :=
  .object [("maxima", d.maxima.write .ofScalar)]

end Overview

end CourseCharts

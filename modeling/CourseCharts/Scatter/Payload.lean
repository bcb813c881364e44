/-
  CourseCharts — responses for a scatter chart.

  A response is an object with the points in `chart-data` and the names of the
  axes in `chart-info`.  A response that lacks one of them is not malformed:
  there is nothing to show.
-/
import CourseCharts.Response
import CourseCharts.Scatter.Point

namespace CourseCharts.Scatter

/-- The names and units of both axes, as they are sent. -/
structure ChartInfo where
  x : String
  y : String
  xUnit : String
  yUnit : String
  deriving DecidableEq, Repr

namespace ChartInfo

/-- The label of the horizontal axis. -/
def xAxis (i : ChartInfo) : AxisLabel := ⟨i.x, i.xUnit⟩

/-- The label of the vertical axis. -/
def yAxis (i : ChartInfo) : AxisLabel := ⟨i.y, i.yUnit⟩

open Json in
/-- The labels as they are sent; units may be left out. -/
def read? {τ : Type} [Readable τ] (t : τ) : Option ChartInfo := do
  let fs ← record? ["x", "y", "x-unit", "y-unit"] t
  return {
    x := ← fs.required? "x" text?
    y := ← fs.required? "y" text?
    xUnit := ← fs.orDefault? "x-unit" "" text?
    yUnit := ← fs.orDefault? "y-unit" "" text? }

open Json in
/-- The labels as they are saved. -/
def write (i : ChartInfo) : Value :=
  .object [("x", .string i.x), ("y", .string i.y), ("x-unit", .string i.xUnit),
    ("y-unit", .string i.yUnit)]

end ChartInfo

/-- What a response says. -/
structure Payload (α : Type) where
  points : List (Point α)
  info : ChartInfo
  deriving Repr

namespace Payload

variable {α : Type} [Scalar α]

/-- Both fields have to be there before one of them is read. -/
def ofValue (v : Json.Value) : Except ChartError (Payload α) := do
  let data ← Response.field v "chart-data"
  let info ← Response.field v "chart-info"
  let points ← (Flaw.malformedField "chart-data").orElse (Json.list? Point.read? data)
  let info ← (Flaw.malformedField "chart-info").orElse (ChartInfo.read? info)
  return ⟨points, info⟩

/-- What a response text says. -/
def ofText (text : String) : Except ChartError (Payload α) := do
  ofValue (← Response.parse text)

end Payload

end CourseCharts.Scatter

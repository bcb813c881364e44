/-
  CourseCharts — the frame of a scatter chart.

  A `Dataset` is what the chart was asked to show; `Dataset.frame` draws it
  with given geometry.
-/
import CourseCharts.Drawing.Axis
import CourseCharts.Scatter.Config
import CourseCharts.Scatter.Projection
import CourseCharts.Scatter.Tooltip

namespace CourseCharts.Scatter

/-- What a scatter chart shows. -/
structure Dataset (α : Type) where
  points : List (Point α)
  xAxis : AxisLabel
  yAxis : AxisLabel
  grouping : Grouping
  deriving Repr

variable {α : Type} [Scalar α]

/-- A tick with its text. -/
def AxisTick.label (precision : Nat) (t : AxisTick α) : TickLabel α :=
  ⟨t.position, Scalar.tickText t.value precision⟩

namespace Dataset

/-- The background, the axes and their titles. -/
def chrome (d : Dataset α) (c : Config α) (p : Projection α) : Chrome α :=
  let plot := c.plotArea
  .background plot
    ++ .bottomAxis plot (p.xTicks.map (·.label p.xPrecision)) c.tickFontSize
    ++ .bottomTitle plot d.xAxis.title c.titleFontSize
    ++ .rightAxis plot c.yAxisOffset (p.yTicks.map (·.label p.yPrecision)) c.tickFontSize
    ++ .rightTitle plot 120.0 d.yAxis.title c.titleFontSize

/-- The circle of a point. -/
def circle (d : Dataset α) (c : Config α) (showOutliers : Bool) (p : Point α) (m : Marker α) :
    Circle α where
  x := c.plotArea.left + m.x
  y := c.plotArea.top + m.y
  radius := c.markerRadius
  color := p.color
  link := {
    href := some (c.submissionLink p.key.text)
    tooltip := some (Tooltip.ofPoint p d.xAxis d.yAxis showOutliers).text }

/-- The caption above the circle of a point. -/
def caption (d : Dataset α) (c : Config α) (p : Point α) (m : Marker α) : Label α where
  text := p.caption d.grouping
  x := c.plotArea.left + m.x
  y := c.plotArea.top + m.y - c.captionFontSize
  fontSize := c.captionFontSize
  color := p.color
  align := .center
  rotation := 0.0

/-- The plot with the padding that markers may stick out into. -/
def clip (c : Config α) : Clip α where
  x := c.plotArea.left - c.clipPadding
  y := c.plotArea.top - c.clipPadding
  width := c.plotArea.width + 2.0 * c.clipPadding
  height := c.plotArea.height + 2.0 * c.clipPadding

/-- A circle for every point, and a caption where there is a text. -/
def body (d : Dataset α) (c : Config α) (showOutliers : Bool) (ms : List (Marker α)) :
    Body α where
  clip := some (clip c)
  rects := []
  circles := List.zipWith (d.circle c showOutliers) d.points ms
  labels := (List.zipWith (d.caption c) d.points ms).filter fun l => !l.text.isEmpty

/-- The frame of the dataset. -/
def frame (d : Dataset α) (c : Config α) (showOutliers : Bool) (p : Projection α) : Frame α where
  viewport := c.viewport
  chrome := d.chrome c p
  body := d.body c showOutliers p.markers

end Dataset

end CourseCharts.Scatter

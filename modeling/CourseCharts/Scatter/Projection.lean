/-
  CourseCharts — the geometry of a scatter chart.

  * `Scales.fit?` fits the two scales to the shown values, `Scales.zoomed?`
    are the scales under a zoom;
  * `Projection.ofPoints?` places markers and ticks, everything that moves
    when the scales change;
  * `Projection.rebased?` is where an animation towards a projection starts.
-/
import CourseCharts.Motion.Blend
import CourseCharts.Plot
import CourseCharts.Scale.Linear
import CourseCharts.Scatter.Point

namespace CourseCharts.Scatter

/-- The scales of both directions. -/
structure Scales (α : Type) where
  x : LinearScale α
  y : LinearScale α
  deriving Repr

/-- The center of a marker, in pixels of the plot. -/
structure Marker (α : Type) where
  x : α
  y : α
  deriving Repr

/-- The value of a tick and its pixel along the axis. -/
structure AxisTick (α : Type) where
  value : α
  position : α
  deriving Repr

/-- Markers in the order of the points, and ticks with their precision. -/
structure Projection (α : Type) where
  markers : List (Marker α)
  xTicks : List (AxisTick α)
  yTicks : List (AxisTick α)
  xPrecision : Nat
  yPrecision : Nat
  deriving Repr

variable {α : Type} [Scalar α]

/-! ## Scales -/

namespace Scales

/-- Scales from the padded extents onto the plot; larger `y` are higher. -/
def fit? (points : List (Point α)) (showOutliers : Bool) (plot : PlotArea α) :
    Except ChartError (Scales α) := do
  let x ← Extent.fit? (points.map (·.x))
  let y ← Extent.fit? (points.map (·.shownY showOutliers))
  return ⟨← LinearScale.ofExtent? x (0.0, plot.width),
    ← LinearScale.ofExtent? y (plot.height, 0.0)⟩

/-- The scales that show what a zoom leaves in view. -/
def zoomed? (s : Scales α) (z : Zoom α) : Except ChartError (Scales α) := do
  if z.isIdentity then return s
  return ⟨← s.x.rescaled? z .x, ← s.y.rescaled? z .y⟩

end Scales

/-! ## Markers and ticks -/

/-- A marker at the values of a point. -/
def Marker.ofPoint? (s : Scales α) (showOutliers : Bool) (p : Point α) :
    Except ChartError (Marker α) := do
  return ⟨← s.x.toPixel? p.x, ← s.y.toPixel? (p.shownY showOutliers)⟩

/-- A tick at a value. -/
def AxisTick.ofValue? (s : LinearScale α) (value : α) : Except ChartError (AxisTick α) := do
  return ⟨value, ← s.toPixel? value⟩

namespace Projection

/-- The markers of the points. -/
def markers? (points : List (Point α)) (s : Scales α) (showOutliers : Bool) :
    Except ChartError (List (Marker α)) :=
  points.mapM (Marker.ofPoint? s showOutliers)

/-- Ticks at the given values. -/
def ticks? (s : LinearScale α) (values : List α) : Except ChartError (List (AxisTick α)) :=
  values.mapM (AxisTick.ofValue? s)

/-- The projection of the points, with about as many ticks as asked. -/
def ofPoints? (points : List (Point α)) (s : Scales α) (showOutliers : Bool)
    (xCount yCount : Nat) : Except ChartError (Projection α) := do
  return {
    markers := ← markers? points s showOutliers
    xTicks := ← ticks? s.x (s.x.ticks xCount)
    yTicks := ← ticks? s.y (s.y.ticks yCount)
    xPrecision := s.x.tickPrecision xCount
    yPrecision := s.y.tickPrecision yCount }

/-- The start of the way to `p`: the markers as they are shown, and the ticks
    of `p` where the previous scales have them. -/
def rebased? (p : Projection α) (shown : List (Marker α)) (previous : Scales α) :
    Except ChartError (Projection α) := do
  return {
    markers := shown
    xTicks := ← ticks? previous.x (p.xTicks.map (·.value))
    yTicks := ← ticks? previous.y (p.yTicks.map (·.value))
    xPrecision := p.xPrecision
    yPrecision := p.yPrecision }

end Projection

/-! ## Blending -/

instance : Blend (Marker α) α where
  blend a b t := ⟨blend a.x b.x t, blend a.y b.y t⟩

/-- A tick keeps the value of the target. -/
instance : Blend (AxisTick α) α where
  blend a b t := ⟨b.value, blend a.position b.position t⟩

/-- Precisions are those of the target. -/
instance : Blend (Projection α) α where
  blend a b t := {
    markers := blend a.markers b.markers t
    xTicks := blend a.xTicks b.xTicks t
    yTicks := blend a.yTicks b.yTicks t
    xPrecision := b.xPrecision
    yPrecision := b.yPrecision }

end CourseCharts.Scatter

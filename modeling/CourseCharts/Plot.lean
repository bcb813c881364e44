/-
  CourseCharts — the place of a chart.

  A chart fills a `Viewport`; `Margins` around its body hold axes, titles and
  the legend, and what they leave is the `PlotArea`.  The geometry of a chart
  is in pixels of the plot, with the origin in its upper left corner.
-/
import CourseCharts.Error

namespace CourseCharts

/-- The size of a chart in pixels. -/
structure Viewport where
  width : Nat
  height : Nat
  deriving DecidableEq, Repr

/-- A viewport has an area. -/
def Viewport.isValid (v : Viewport) : Bool := 0 < v.width && 0 < v.height

/-- Passes if the viewport has an area. -/
def Viewport.validate (v : Viewport) : Except ChartError Unit :=
  if v.isValid then .ok () else .error (.invalidViewport v.width v.height)

/-- The space around the plot. -/
structure Margins (α : Type) where
  top : α
  right : α
  bottom : α
  left : α
  deriving Repr

/-- The rectangle of the plot in the viewport. -/
structure PlotArea (α : Type) where
  left : α
  top : α
  width : α
  height : α
  deriving Repr

section
variable {α : Type} [Scalar α]

/-- Room for an axis on the right and at the bottom. -/
def Margins.standard : Margins α := ⟨10.0, 150.0, 100.0, 100.0⟩

/-- The part of a viewport that the margins leave. -/
def PlotArea.within (v : Viewport) (m : Margins α) : PlotArea α where
  left := m.left
  top := m.top
  width := Scalar.ofNat v.width - m.left - m.right
  height := Scalar.ofNat v.height - m.top - m.bottom

/-- A plot has a finite area. -/
def PlotArea.isValid (p : PlotArea α) : Bool :=
  Requirement.positive.holds p.width && Requirement.positive.holds p.height

/-- The lower edge of the plot. -/
def PlotArea.bottom (p : PlotArea α) : α := p.top + p.height

/-- The right edge of the plot. -/
def PlotArea.right (p : PlotArea α) : α := p.left + p.width

/-- Checks a viewport and the margins inside it. -/
def Margins.validateIn (v : Viewport) (m : Margins α) : Except ChartError Unit := do
  v.validate
  (Quantity.margin .top).require .nonnegative [m.top]
  (Quantity.margin .right).require .nonnegative [m.right]
  (Quantity.margin .bottom).require .nonnegative [m.bottom]
  (Quantity.margin .left).require .nonnegative [m.left]
  Flaw.noRoomForPlot.unless (PlotArea.within v m).isValid

end

end CourseCharts

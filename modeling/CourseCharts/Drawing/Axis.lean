/-
  CourseCharts — axes, titles and the background of a plot.
-/
import CourseCharts.Drawing.Frame

namespace CourseCharts

/-- A tick at a pixel of the plot, with its label. -/
structure TickLabel (α : Type) where
  position : α
  text : String
  deriving Repr

namespace Chrome

variable {α : Type} [Scalar α]

/-- The color of axes and labels. -/
def axisColor : Color α := .black

/-- The color of grid lines. -/
def gridColor : Color α := ⟨0.0, 0.0, 0.0, 0.12⟩

/-- The color of the plot. -/
def plotColor : Color α := .rgb 0.97 0.97 0.97

/-- Whether a pixel lies within a length, allowing for rounding. -/
def within (position length : α) : Bool :=
  -1e-6 ≤ position && position ≤ length + 1e-6

/-- A label that is not turned. -/
def level (text : String) (x y fontSize : α) (align : Alignment) : Label α :=
  ⟨text, x, y, fontSize, axisColor, align, 0.0⟩

/-- A line of the width of one pixel. -/
def thin (x1 y1 x2 y2 : α) (color : Color α) : Line α := ⟨x1, y1, x2, y2, 1.0, color⟩

/-- The background of the plot. -/
def background (plot : PlotArea α) : Chrome α where
  lines := []
  rects := [⟨plot.left, plot.top, plot.width, plot.height, plotColor, .none⟩]
  labels := []

/-- The axis below the plot, with grid lines as high as the plot.  Ticks
    outside the plot are left out. -/
def bottomAxis (plot : PlotArea α) (ticks : List (TickLabel α)) (fontSize : α) : Chrome α :=
  let shown := ticks.filter fun t => within t.position plot.width
  { lines := thin plot.left plot.bottom plot.right plot.bottom axisColor ::
      shown.map fun t =>
        thin (plot.left + t.position) plot.top (plot.left + t.position) plot.bottom gridColor
    rects := []
    labels := (shown.filter fun t => !t.text.isEmpty).map fun t =>
      level t.text (plot.left + t.position) (plot.bottom + 3.0 + 0.71 * fontSize) fontSize
        .center }

/-- The axis `offset` pixels to the right of the plot, with labels to its
    right.  Ticks outside the plot are left out. -/
def rightAxis (plot : PlotArea α) (offset : α) (ticks : List (TickLabel α)) (fontSize : α) :
    Chrome α :=
  let x := plot.right + offset
  let shown := ticks.filter fun t => within t.position plot.height
  { lines := thin x plot.top x plot.bottom axisColor ::
      shown.map fun t =>
        thin x (plot.top + t.position) (x + 6.0) (plot.top + t.position) axisColor
    rects := []
    labels := shown.map fun t =>
      level t.text (x + 6.0 + 3.0) (plot.top + t.position + 0.32 * fontSize) fontSize .left }

/-- A label alone, if it has a text. -/
def title (l : Label α) : Chrome α where
  lines := []
  rects := []
  labels := if l.text.isEmpty then [] else [l]

/-- The title below the plot. -/
def bottomTitle (plot : PlotArea α) (text : String) (fontSize : α) : Chrome α :=
  title (level text (plot.left + plot.width / 2.0) (plot.bottom + 40.0) fontSize .center)

/-- The title `offset` pixels to the right of the plot, which reads
    downwards. -/
def rightTitle (plot : PlotArea α) (offset : α) (text : String) (fontSize : α) : Chrome α :=
  title { level text (plot.right + offset) (plot.top + plot.height * 0.6) fontSize .center with
    rotation := 90.0 }

end Chrome

end CourseCharts

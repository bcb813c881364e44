/-
  CourseCharts — the tooltip of a marker.
-/
import CourseCharts.Scatter.Point

namespace CourseCharts.Scatter

/-- A label with a value. -/
structure TooltipRow where
  label : String
  value : String
  deriving DecidableEq, Repr

/-- What is shown while the mouse is over a marker. -/
structure Tooltip where
  heading : String
  first : TooltipRow
  second : TooltipRow
  deriving DecidableEq, Repr

namespace Tooltip

/-- The owner and the project of a point, its shown `y` and its `x`. -/
def ofPoint {α : Type} [Scalar α] (p : Point α) (x y : AxisLabel) (showOutliers : Bool) :
    Tooltip where
  heading := p.user ++ "'s " ++ p.project
  first := ⟨y.label, y.valueText (p.shownY showOutliers)⟩
  second := ⟨x.label, x.valueText p.x⟩

/-- The tooltip as lines of a text. -/
def text (t : Tooltip) : String :=
  t.heading ++ "\n" ++ t.first.label ++ ": " ++ t.first.value ++
    "\n" ++ t.second.label ++ ": " ++ t.second.value

end Tooltip

end CourseCharts.Scatter

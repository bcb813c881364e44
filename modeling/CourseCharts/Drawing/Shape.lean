/-
  CourseCharts — shapes.

  Lines, rectangles, circles and labels, in pixels of the viewport.  A
  rectangle or a circle may carry a `Link`.
-/
import CourseCharts.Drawing.Color

namespace CourseCharts

/-- Where a click on a shape leads, and the text shown when the mouse is over
    it. -/
structure Link where
  href : Option String
  tooltip : Option String
  deriving DecidableEq, Repr

/-- No link and no text. -/
def Link.none : Link := ⟨.none, .none⟩

/-- A straight line. -/
structure Line (α : Type) where
  x1 : α
  y1 : α
  x2 : α
  y2 : α
  width : α
  color : Color α
  deriving Repr

/-- A filled rectangle; it may be empty. -/
structure Rect (α : Type) where
  x : α
  y : α
  width : α
  height : α
  color : Color α
  link : Link
  deriving Repr

/-- A filled circle. -/
structure Circle (α : Type) where
  x : α
  y : α
  radius : α
  color : Color α
  link : Link
  deriving Repr

/-- Where a label is relative to its `x`. -/
inductive Alignment where
  | left | center | right
  deriving DecidableEq, Repr

/-- A text; `y` is its baseline, and it is turned clockwise about `(x, y)` by
    `rotation` degrees. -/
structure Label (α : Type) where
  text : String
  x : α
  y : α
  fontSize : α
  color : Color α
  align : Alignment
  rotation : α
  deriving Repr

variable {α : Type} [Scalar α]

/-- A line can be drawn. -/
def Line.validate (l : Line α) : Except ChartError Unit := do
  Quantity.lineCoordinates.require .finite [l.x1, l.y1, l.x2, l.y2]
  Quantity.lineStrokeWidth.require .positive [l.width]
  l.color.validate

/-- A rectangle can be drawn. -/
def Rect.validate (r : Rect α) : Except ChartError Unit := do
  Quantity.rectOrigin.require .finite [r.x, r.y]
  Quantity.rectSize.require .nonnegative [r.width, r.height]
  r.color.validate

/-- A circle can be drawn. -/
def Circle.validate (c : Circle α) : Except ChartError Unit := do
  Quantity.circleCenter.require .finite [c.x, c.y]
  Quantity.circleRadius.require .positive [c.radius]
  c.color.validate

/-- A label can be drawn. -/
def Label.validate (l : Label α) : Except ChartError Unit := do
  Flaw.emptyText.unless !l.text.isEmpty
  Quantity.textCoordinates.require .finite [l.x, l.y, l.rotation]
  Quantity.fontSize.require .positive [l.fontSize]
  l.color.validate

end CourseCharts

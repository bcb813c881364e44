/-
  CourseCharts — frames.

  A `Frame` is everything a surface has to show: the `Chrome` (background,
  axes, titles, legend) and on top of it the `Body`, the shapes of the data.
-/
import CourseCharts.Drawing.Shape
import CourseCharts.Plot

namespace CourseCharts

/-- The shapes around the data. -/
structure Chrome (α : Type) where
  lines : List (Line α)
  rects : List (Rect α)
  labels : List (Label α)
  deriving Repr

namespace Chrome

variable {α : Type}

/-- No shapes. -/
def empty : Chrome α := ⟨[], [], []⟩

/-- The shapes of one and then those of the other. -/
instance : Append (Chrome α) where
  append a b := ⟨a.lines ++ b.lines, a.rects ++ b.rects, a.labels ++ b.labels⟩

/-- The number of shapes. -/
def size (c : Chrome α) : Nat := c.lines.length + c.rects.length + c.labels.length

end Chrome

/-- The rectangle that the body is cut to. -/
structure Clip (α : Type) where
  x : α
  y : α
  width : α
  height : α
  deriving Repr

/-- The shapes of the data. -/
structure Body (α : Type) where
  clip : Option (Clip α)
  rects : List (Rect α)
  circles : List (Circle α)
  labels : List (Label α)
  deriving Repr

namespace Body

variable {α : Type}

/-- No shapes. -/
def empty : Body α := ⟨none, [], [], []⟩

/-- The number of shapes. -/
def size (b : Body α) : Nat := b.circles.length + b.rects.length + b.labels.length

end Body

/-- What a surface shows. -/
structure Frame (α : Type) where
  viewport : Viewport
  chrome : Chrome α
  body : Body α
  deriving Repr

namespace Frame

variable {α : Type}

/-- Nothing in a viewport. -/
def blank (v : Viewport) : Frame α := ⟨v, .empty, .empty⟩

/-- The number of shapes. -/
def size (f : Frame α) : Nat := f.chrome.size + f.body.size

/-- Whether there is no shape. -/
def isEmpty (f : Frame α) : Bool := f.size == 0

/-- All shapes can be drawn; the first one that cannot gives the error. -/
def validate [Scalar α] (f : Frame α) : Except ChartError Unit := do
  f.viewport.validate
  f.chrome.lines.forM Line.validate
  f.chrome.rects.forM Rect.validate
  f.body.rects.forM Rect.validate
  f.body.circles.forM Circle.validate
  f.chrome.labels.forM Label.validate
  f.body.labels.forM Label.validate

end Frame

end CourseCharts

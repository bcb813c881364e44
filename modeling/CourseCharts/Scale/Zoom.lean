/-
  CourseCharts — panning and zooming.

  A `Zoom` takes the pixel `p` of an axis to `factor · p + offset`.

  * `Zoom.apply` and `Zoom.invert` are the map and its inverse on an axis;
  * `Zoom.andThen` applies one zoom after another.
-/
import CourseCharts.Error

namespace CourseCharts

/-- The two directions of a chart. -/
inductive Direction where
  | x | y
  deriving DecidableEq, Repr

/-- A zoom by `factor`, followed by a shift by `x` and `y` pixels. -/
structure Zoom (α : Type) where
  factor : α
  x : α
  y : α
  deriving Repr

namespace Zoom

variable {α : Type} [Scalar α]

/-- Nothing moves. -/
def identity : Zoom α := ⟨1.0, 0.0, 0.0⟩

/-- A shift. -/
def translate (dx dy : α) : Zoom α := ⟨1.0, dx, dy⟩

/-- A zoom that keeps the pixel `(x, y)` in place. -/
def about (factor x y : α) : Zoom α := ⟨factor, x * (1.0 - factor), y * (1.0 - factor)⟩

/-- The factor has to be positive, the shift finite. -/
def validate (z : Zoom α) : Except ChartError Unit := do
  Quantity.zoomFactor.require .positive [z.factor]
  Quantity.zoomTranslation.require .finite [z.x, z.y]

/-- A zoom that passes `validate`. -/
def make? (factor x y : α) : Except ChartError (Zoom α) := do
  let z : Zoom α := ⟨factor, x, y⟩
  z.validate
  return z

/-- Whether nothing moves. -/
def isIdentity (z : Zoom α) : Bool := z.factor == 1.0 && z.x == 0.0 && z.y == 0.0

/-- First `z`, then `next`. -/
def andThen (z next : Zoom α) : Zoom α where
  factor := next.factor * z.factor
  x := next.factor * z.x + next.x
  y := next.factor * z.y + next.y

/-- The shift in a direction. -/
def offset (z : Zoom α) : Direction → α
  | .x => z.x
  | .y => z.y

/-- Where the pixel `p` goes. -/
def apply (z : Zoom α) (d : Direction) (p : α) : α := p * z.factor + z.offset d

/-- Which pixel goes to `p`. -/
def invert (z : Zoom α) (d : Direction) (p : α) : α := (p - z.offset d) / z.factor

end Zoom

end CourseCharts

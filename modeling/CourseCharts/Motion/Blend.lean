/-
  CourseCharts — shapes between two shapes.

  `Blend.blend a b t` is the shape on the way from `a` to `b`, at `a` for
  `t = 0` and at `b` for `t = 1`.  Numbers move on a line, and lists element by
  element; a list of another length has nothing to start from and is at its
  target at once.
-/
import CourseCharts.Number.Scalar

namespace CourseCharts

/-- Shapes that can be blended by numbers of `α`. -/
class Blend (τ : Type) (α : outParam Type) where
  /-- The shape between two shapes. -/
  blend : τ → τ → α → τ

export Blend (blend)

variable {α τ : Type}

instance [Scalar α] : Blend α α where
  blend a b t := a + (b - a) * t

instance [Blend τ α] : Blend (List τ) α where
  blend as bs t :=
    if as.length = bs.length then List.zipWith (fun a b => blend a b t) as bs else bs

end CourseCharts

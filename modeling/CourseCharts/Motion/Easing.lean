/-
  CourseCharts — easing curves.
-/
import CourseCharts.Number.Scalar

namespace CourseCharts

/-- How the progress of an animation follows the clock. -/
inductive Easing where
  /-- At constant speed. -/
  | linear
  /-- Accelerating up to the middle, slowing down after it. -/
  | quadInOut
  deriving DecidableEq, Repr

/-- The progress at the time `t`; times before `0` and after `1` count as
    these. -/
def Easing.apply {α : Type} [Scalar α] (e : Easing) (t : α) : α :=
  let t := Scalar.clamp 0.0 1.0 t
  match e with
  | linear => t
  | quadInOut =>
    if t ≤ 0.5 then 2.0 * t * t
    else
      let rest := 1.0 - t
      1.0 - 2.0 * rest * rest

end CourseCharts

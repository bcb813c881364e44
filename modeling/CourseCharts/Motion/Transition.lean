/-
  CourseCharts — animations.

  A `Transition` takes one shape to another within a given time.

  * `Transition.advance` moves its clock, never backwards;
  * `Transition.current` is the shape at the clock: exactly the target from the
    end of the duration on.
-/
import CourseCharts.Error
import CourseCharts.Motion.Blend
import CourseCharts.Motion.Easing

namespace CourseCharts

/-- The way from `origin` to `target`; times are in milliseconds. -/
structure Transition (τ α : Type) where
  origin : τ
  target : τ
  duration : α
  easing : Easing
  elapsed : α
  deriving Repr

namespace Transition

variable {τ α : Type} [Scalar α]

/-- A transition at its start. -/
def make? (origin target : τ) (duration : α) (easing : Easing) :
    Except ChartError (Transition τ α) := do
  Quantity.transitionDuration.require .nonnegative [duration]
  return ⟨origin, target, duration, easing, 0.0⟩

/-- Whether the duration is over. -/
def isFinished (a : Transition τ α) : Bool := a.duration ≤ a.elapsed

/-- Moves the clock to a later time; other times change nothing. -/
def advance (a : Transition τ α) (time : α) : Transition τ α :=
  if Scalar.isFinite time && a.elapsed < time then { a with elapsed := time } else a

/-- The shape at the clock. -/
def current [Blend τ α] (a : Transition τ α) : τ :=
  if a.isFinished then a.target
  else blend a.origin a.target (a.easing.apply (a.elapsed / a.duration))

end Transition

end CourseCharts

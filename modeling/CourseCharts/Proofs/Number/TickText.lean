/-
  CourseCharts — the texts of ticks.

  Every tick has a text, be its value finite or not (`tickText_isEmpty`).
-/
import CourseCharts.Number.Scalar

namespace CourseCharts

theorem Digits.fixed_ne_empty (n places : Nat) : Digits.fixed n places ≠ "" := by
  unfold Digits.fixed
  split
  next => simp
  next => simp

theorem Digits.positional_ne_empty (d : Digits) : d.positional ≠ "" := by
  unfold Digits.positional
  split <;> exact Digits.fixed_ne_empty _ _

theorem Double.text_ne_empty (x : Float) : Double.text x ≠ "" := by
  unfold Double.text
  split
  next => decide
  next => decide
  next => decide
  next => decide
  next => decide
  next => exact Digits.positional_ne_empty _
  next => simp

theorem tickText_isEmpty (x : Float) (precision : Nat) :
    (Scalar.tickText x precision).isEmpty = false := by
  cases h : FixedDecimal.ofFloat? x with
  | none =>
    have htext : Scalar.tickText x precision = Double.text x := by simp only [Scalar.tickText, h]
    simp [htext, Double.text_ne_empty]
  | some d =>
    have htext : Scalar.tickText x precision = (d.roundTo precision).text precision := by
      simp only [Scalar.tickText, h]
    simp [htext, FixedDecimal.text, Digits.fixed_ne_empty]

end CourseCharts

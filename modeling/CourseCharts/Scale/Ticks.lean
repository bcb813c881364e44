/-
  CourseCharts — the ticks of an axis.

  * `tickStep?` is a round step, `1`, `2` or `5` times a power of ten, for
    about as many ticks as asked;
  * `ticks` are its multiples in a domain;
  * `tickPrecision` is the number of decimals that tell them apart.
-/
import CourseCharts.Number.Scalar

namespace CourseCharts

variable {α : Type} [Scalar α]

/-- The two ends of a domain in order. -/
def inOrder (a b : α) : α × α := if a ≤ b then (a, b) else (b, a)

/-- The step for about `count` ticks from `a` to `b`: the power of ten below
    the even spacing, raised where it would give far too many ticks. -/
def tickStep? (a b : α) (count : Nat) : Option α :=
  let (low, high) := inOrder a b
  let span := high - low
  if Scalar.isFinite span && 0.0 < span && count != 0 then
    let n : α := Scalar.ofNat count
    let step := Scalar.powerOfTen (span / n)
    let error := n / span * step
    some <|
      if error ≤ 0.15 then step * 10.0
      else if error ≤ 0.35 then step * 5.0
      else if error ≤ 0.75 then step * 2.0
      else step
  else none

/-- The indices of ticks are 64-bit integers. -/
def clampIndex (i : Int) : Int := max Int64.minValue.toInt (min i Int64.maxValue.toInt)

/-- The multiples of the tick step from `a` to `b`, in ascending order. -/
def ticks (a b : α) (count : Nat) : List α :=
  match tickStep? a b count with
  | none => []
  | some step =>
    let (low, high) := inOrder a b
    let first := clampIndex (Scalar.ceil (low / step))
    let last := clampIndex (Scalar.floor (high / step))
    (List.range (last + 1 - first).toNat).map fun i : Nat => Scalar.ofInt (first + i) * step

/-- The decimals needed to write ticks that are `step` apart. -/
def tickPrecision (step : α) : Nat :=
  if Scalar.isFinite step && 0.0 < step then Scalar.decimals step else 0

end CourseCharts

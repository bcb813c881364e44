/-
  CourseCharts — linear scales.

  A `LinearScale` maps a domain of values onto a range of pixels.  The range
  may run downwards, so that larger values sit higher on the screen.

  * `toPixel?` and `toValue?` are the map and its inverse;
  * `rescaled?` shows the part of the domain that a zoom leaves in view.
-/
import CourseCharts.Scale.Extent
import CourseCharts.Scale.Ticks
import CourseCharts.Scale.Zoom

namespace CourseCharts

/-- The map that takes `domainStart` to `rangeStart` and `domainEnd` to
    `rangeEnd`. -/
structure LinearScale (α : Type) where
  domainStart : α
  domainEnd : α
  rangeStart : α
  rangeEnd : α
  deriving Repr

namespace LinearScale

variable {α : Type} [Scalar α]

/-- The scale of a domain, which must not be a point, and a range. -/
def make? (domain range : α × α) : Except ChartError (LinearScale α) := do
  (Flaw.unmet .scaleDomain .nonzero).unless
    (Scalar.isFinite domain.1 && Scalar.isFinite domain.2 && !(domain.1 == domain.2))
  Quantity.scaleRange.require .finite [range.1, range.2]
  return ⟨domain.1, domain.2, range.1, range.2⟩

/-- The scale of an extent. -/
def ofExtent? (e : Extent α) (range : α × α) : Except ChartError (LinearScale α) :=
  make? (e.min, e.max) range

/-- The ends of the domain. -/
def domain (s : LinearScale α) : α × α := (s.domainStart, s.domainEnd)

/-- The ends of the range. -/
def range (s : LinearScale α) : α × α := (s.rangeStart, s.rangeEnd)

/-- The pixel of a value. -/
def toPixel? (s : LinearScale α) (value : α) : Except ChartError α := do
  Quantity.value.require .finite [value]
  let t := (value - s.domainStart) / (s.domainEnd - s.domainStart)
  return s.rangeStart + t * (s.rangeEnd - s.rangeStart)

/-- The value at a pixel; the start of the domain if the range is a point. -/
def toValue? (s : LinearScale α) (pixel : α) : Except ChartError α := do
  Quantity.pixel.require .finite [pixel]
  let span := s.rangeEnd - s.rangeStart
  if span == 0.0 then return s.domainStart
  let t := (pixel - s.rangeStart) / span
  return s.domainStart + t * (s.domainEnd - s.domainStart)

/-- Round values in the domain, about `count` of them. -/
def ticks (s : LinearScale α) (count : Nat) : List α :=
  CourseCharts.ticks s.domainStart s.domainEnd count

/-- The decimals needed to write `ticks`. -/
def tickPrecision (s : LinearScale α) (count : Nat) : Nat :=
  match tickStep? s.domainStart s.domainEnd count with
  | some step => CourseCharts.tickPrecision step
  | none => 0

/-- The scale with the same range whose domain is in view after the zoom. -/
def rescaled? (s : LinearScale α) (z : Zoom α) (d : Direction) :
    Except ChartError (LinearScale α) := do
  let a ← s.toValue? (z.invert d s.rangeStart)
  let b ← s.toValue? (z.invert d s.rangeEnd)
  make? (a, b) s.range

end LinearScale

end CourseCharts

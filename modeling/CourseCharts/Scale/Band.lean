/-
  CourseCharts — band scales.

  A `BandScale` cuts a width into equal bands, one for each distinct key in the
  order of their first occurrence.
-/
import CourseCharts.Error

namespace CourseCharts

/-- Equal bands for `keys`, which are distinct, over `width`. -/
structure BandScale (α : Type) where
  keys : List String
  width : α
  deriving Repr

namespace BandScale

variable {α : Type} [Scalar α]

/-- The bands of a list of keys; a repeated key belongs to its first band. -/
def make? (keys : List String) (width : α) : Except ChartError (BandScale α) := do
  Quantity.bandScaleWidth.require .positive [width]
  return ⟨keys.eraseDups, width⟩

/-- The number of bands. -/
def size (b : BandScale α) : Nat := b.keys.length

/-- Whether there is no band. -/
def isEmpty (b : BandScale α) : Bool := b.keys.isEmpty

/-- The width of one band. -/
def bandwidth (b : BandScale α) : α :=
  if b.isEmpty then 0.0 else b.width / Scalar.ofNat b.size

/-- The left edge of the band of a key. -/
def position? (b : BandScale α) (key : String) : Option α :=
  (b.keys.idxOf? key).map fun i => Scalar.ofNat i * b.bandwidth

/-- Every key with the center of its band. -/
def centers (b : BandScale α) : List (String × α) :=
  b.keys.mapIdx fun i key => (key, Scalar.ofNat i * b.bandwidth + b.bandwidth / 2.0)

end BandScale

end CourseCharts

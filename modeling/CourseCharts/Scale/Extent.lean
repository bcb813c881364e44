/-
  CourseCharts — the span of a series of values.

  * `Extent.raw?` is the least and the greatest of a list of finite values;
  * `Extent.padded` widens it into an axis domain, `Extent.fit?` does both;
  * `Extent.ofCounts` is the span from zero to the greatest count.
-/
import CourseCharts.Error

namespace CourseCharts

/-- The values from `min` to `max`. -/
structure Extent (α : Type) where
  min : α
  max : α
  deriving Repr

namespace Extent

variable {α : Type} [Scalar α]

/-- The distance from end to end. -/
def span (e : Extent α) : α := e.max - e.min

/-- Whether a value lies in the extent. -/
def contains (e : Extent α) (x : α) : Bool := e.min ≤ x && x ≤ e.max

/-- The extent with one more value.  Of equal values the first one stays the
    minimum and the last one becomes the maximum. -/
def widen (e : Extent α) (x : α) : Extent α where
  min := if Scalar.totalLE e.min x then e.min else x
  max := if Scalar.totalLE e.max x then x else e.max

/-- The extent of the values; there has to be one, and all have to be finite. -/
def raw? : List α → Except ChartError (Extent α)
  | [] => .error (.invalidData .emptyExtent)
  | x :: xs => do
    let e := xs.foldl widen ⟨x, x⟩
    Quantity.extentValues.require .finite [e.min, e.max]
    return e

/-- A domain around the values: a twentieth of the span on either side, or ten
    if there is no span.  Axes show counts or percentages, so values that are
    not negative get no negative domain, and values up to a hundred no domain
    beyond a hundred. -/
def padded (e : Extent α) : Extent α :=
  let padding := if e.min == e.max then 10.0 else 0.05 * e.span
  { min := if 0.0 ≤ e.min then Scalar.larger (e.min - padding) 0.0 else e.min - padding
    max := if e.max ≤ 100.0 then Scalar.smaller (e.max + padding) 100.0 else e.max + padding }

/-- The padded extent of the values. -/
def fit? (xs : List α) : Except ChartError (Extent α) :=
  (raw? xs).map padded

/-- From zero to the greatest count; from zero to zero without counts. -/
def ofCounts (counts : List Nat) : Extent α :=
  ⟨0.0, Scalar.ofNat (counts.foldl Nat.max 0)⟩

end Extent

end CourseCharts

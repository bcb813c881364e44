/-
  CourseCharts — colors.
-/
import CourseCharts.Error

namespace CourseCharts

/-- A color with channels from zero to one. -/
structure Color (α : Type) where
  red : α
  green : α
  blue : α
  alpha : α
  deriving Repr

/-- The two hexadecimal digits of a byte. -/
def hexByte (n : Nat) : String :=
  String.ofList [Nat.digitChar (n / 16), Nat.digitChar (n % 16)]

namespace Color

variable {α : Type} [Scalar α]

/-- An opaque color. -/
def rgb (red green blue : α) : Color α := ⟨red, green, blue, 1.0⟩

/-- The opaque color of three bytes. -/
def rgb8 (red green blue : Nat) : Color α :=
  rgb (Scalar.ofNat red / 255.0) (Scalar.ofNat green / 255.0) (Scalar.ofNat blue / 255.0)

/-- Black. -/
def black : Color α := rgb 0.0 0.0 0.0

/-- Red. -/
def pureRed : Color α := rgb 1.0 0.0 0.0

/-- The byte nearest to a channel. -/
def byte (x : α) : Nat :=
  (Scalar.floor (Scalar.round (Scalar.clamp 0.0 1.0 x * 255.0))).toNat

/-- The color as `#rrggbb`, without its alpha channel. -/
def hex (c : Color α) : String :=
  "#" ++ hexByte (byte c.red) ++ hexByte (byte c.green) ++ hexByte (byte c.blue)

/-- All channels have to lie between zero and one. -/
def validate (c : Color α) : Except ChartError Unit := do
  (Quantity.colorChannel .red).require .unitInterval [c.red]
  (Quantity.colorChannel .green).require .unitInterval [c.green]
  (Quantity.colorChannel .blue).require .unitInterval [c.blue]
  (Quantity.colorChannel .alpha).require .unitInterval [c.alpha]

end Color

end CourseCharts

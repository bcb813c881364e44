/-
  CourseCharts — the numbers a chart is computed with.

  Charts are computed with doubles.  The definitions only use the operations
  of the class `Scalar`, so that they can also be read over the rationals,
  where arithmetic is exact; there are instances for `Float` and for `Rat`.

  * `Scalar` has the arithmetic, the order and the texts of a number;
  * `larger`, `smaller` and `clamp` prefer a number to NaN;
  * `NumberOrder.le` is the total order that puts NaN above every number.
-/
import CourseCharts.Number.FixedDecimal
import CourseCharts.Number.WholePart

namespace CourseCharts

/-- Numbers to compute a chart with. -/
class Scalar (α : Type) extends
    Add α, Sub α, Mul α, Div α, Neg α, LE α, LT α, BEq α, OfScientific α where
  /-- The order can be tested. -/
  decidableLE : DecidableLE α
  /-- The strict order can be tested. -/
  decidableLT : DecidableLT α
  /-- Neither NaN nor infinite. -/
  isFinite : α → Bool
  /-- The nearest number to an integer. -/
  ofInt : Int → α
  /-- The number that a finite double stands for. -/
  ofFloat : Float → α
  /-- The greatest integer not above a number. -/
  floor : α → Int
  /-- The nearest whole number, halves away from zero. -/
  round : α → α
  /-- The largest power of ten not above a positive number. -/
  powerOfTen : α → α
  /-- The decimals needed to write a multiple of a positive step. -/
  decimals : α → Nat
  /-- The text of a number. -/
  text : α → String
  /-- The text of a tick value with the given number of decimals. -/
  tickText : α → Nat → String

attribute [reducible, instance] Scalar.decidableLE Scalar.decidableLT

namespace Scalar

section
variable {α : Type} [Scalar α]

/-- The nearest number to a count. -/
def ofNat (n : Nat) : α := ofInt n

/-- The least integer not below a number. -/
def ceil (x : α) : Int := -floor (-x)

/-- Whether `x` is not a number: it differs from itself. -/
def isNaN (x : α) : Bool := !(x == x)

/-- The larger of two numbers; a number rather than NaN. -/
def larger (a b : α) : α :=
  if isNaN a then b else if isNaN b then a else if b < a then a else b

/-- The smaller of two numbers; a number rather than NaN. -/
def smaller (a b : α) : α :=
  if isNaN a then b else if isNaN b then a else if a < b then a else b

/-- `x` held between `low` and `high`; NaN stays. -/
def clamp (low high x : α) : α :=
  if x < low then low else if high < x then high else x

/-- The total order with NaN above every number and equal to itself. -/
def totalLE (a b : α) : Bool := isNaN b || a ≤ b

end

/-! ## Doubles -/

instance : Scalar Float where
  decidableLE := inferInstance
  decidableLT := inferInstance
  isFinite := Float.isFinite
  ofInt := Float.ofInt
  ofFloat := id
  floor := Double.floorInt
  round := Double.round
  powerOfTen x := Float.pow 10.0 (Double.floor (Float.log10 x))
  decimals step := (-Double.floorInt (Float.log10 step + 0.01)).toNat
  text := Double.text
  tickText x p :=
    match FixedDecimal.ofFloat? x with
    | some d => (d.roundTo p).text p
    | none => Double.text x

/-! ## Rationals -/

/-- The number of decimal digits of `n`. -/
def digitCount (n : Nat) : Nat := (toString n).length

/-- The greatest `k` with `10^k ≤ n / d`, for positive `n` and `d`. -/
def log10 (n d : Nat) : Int :=
  if d ≤ n then digitCount (n / d) - 1 else -digitCount ((d + n - 1) / n - 1)

/-- `10^k`. -/
def tenPow (k : Int) : Rat :=
  if 0 ≤ k then (Nat.pow 10 k.toNat : Nat) else 1 / (Nat.pow 10 (-k).toNat : Nat)

/-- `m · 2^e`. -/
def ofBinary (m : Nat) (e : Int) : Rat :=
  (m * Nat.pow 2 e.toNat : Nat) / (Nat.pow 2 (-e).toNat : Nat)

/-- The rational number that a finite double is. -/
def ratOfFloat (x : Float) : Rat :=
  match x.toModel.unpack with
  | .finite .positive m e _ => ofBinary m e
  | .finite .negative m e _ => -ofBinary m e
  | _ => 0

/-- `x` with `p` decimals, rounded half to even. -/
def ratTickText (x : Rat) (p : Nat) : String :=
  let m := FixedDecimal.halfEven (x.num.natAbs * Nat.pow 10 p) x.den
  FixedDecimal.text ⟨x < 0, m, p⟩ p

instance : Scalar Rat where
  decidableLE := inferInstance
  decidableLT := inferInstance
  isFinite _ := true
  ofInt n := n
  ofFloat := ratOfFloat
  floor := Rat.floor
  round x := if x < 0 then -((-x + 1 / 2).floor : Int) else ((x + 1 / 2).floor : Int)
  powerOfTen x := tenPow (log10 x.num.toNat x.den)
  -- `⌊log₁₀ s + 1/100⌋` is a hundredth of `log₁₀ (10 · s^100)`, rounded down
  decimals s := (-(log10 (10 * Nat.pow s.num.toNat 100) (Nat.pow s.den 100) / 100)).toNat
  text x := if x.den = 1 then toString x.num else toString x.num ++ "/" ++ toString x.den
  tickText := ratTickText

end Scalar

end CourseCharts

/-
  CourseCharts — decimal numbers with a fixed number of places.

  Tick labels are rounded as decimal numbers, so that the noise of binary
  arithmetic (`0.30000000000000004`) is gone before a digit is cut off.

  * `FixedDecimal` is `± mantissa / 10^places`, with a mantissa below `2^96`
    and at most 28 places;
  * `ofFloat?` is the decimal nearest to a double as far as its 53 bits tell;
  * `roundTo` rounds to fewer places, halves to the even neighbour, and
    `text` writes a number with a given number of places.
-/
import CourseCharts.Number.Shortest

namespace CourseCharts

/-- The number `mantissa / 10^places`, negated if `negative`. -/
structure FixedDecimal where
  negative : Bool
  mantissa : Nat
  places : Nat
  deriving DecidableEq, Repr

namespace FixedDecimal

/-! ## From a double

A double is `m · 2^e`, which is `m · 10^e · 5^(-e)`.  The conversion starts
there and works the power of five into the mantissa, one factor at a time,
then the power of ten.  A factor that no longer fits into 96 bits costs the
last digit instead. -/

/-- `m · 10^t · 5^n` as a mantissa and a power of ten. -/
def timesFives : Nat → Nat → Int → Nat × Int
  | 0, m, t => (m, t)
  | n + 1, m, t =>
    if m % 2 = 0 then timesFives n (m / 2) (t + 1)
    else if 5 * m < Nat.pow 2 96 then timesFives n (5 * m) t
    else timesFives n (m / 2) (t + 1)

/-- `m · 10^t / 5^n` as a mantissa and a power of ten, unless the power of ten
    is too large to be worked in later. -/
def overFives : Nat → Nat → Int → Option (Nat × Int)
  | 0, m, t => some (m, t)
  | n + 1, m, t =>
    if m < Nat.pow 2 95 then overFives n (2 * m) (t - 1)
    else if n + 1 < 2 * t then none
    else overFives n (m / 5) t

/-- `m · 10^n`, if it fits into 96 bits. -/
def timesTens : Nat → Nat → Option Nat
  | 0, m => some m
  | n + 1, m => if 10 * m < Nat.pow 2 96 then timesTens n (10 * m) else none

/-- `m / 10`, rounded half up. -/
def tenth (m : Nat) : Nat :=
  m / 10 + if 5 ≤ m % 10 then 1 else 0

/-- Takes `n` places off a mantissa with `28 + n` places; nothing is left of
    one that runs out of digits. -/
def shedPlaces : Nat → Nat → Nat × Nat
  | 0, m => (m, 28)
  | n + 1, m => if m / 10 = 0 then (0, 0) else shedPlaces n (tenth m)

/-- Takes places off a mantissa that has more digits than a double holds. -/
def shedNoise : Nat → Nat → Nat × Nat
  | 0, m => (m, 0)
  | p + 1, m => if Nat.pow 2 52 ≤ m then shedNoise p (tenth m) else (m, p + 1)

/-- Takes off the decimals that are zero. -/
def shedZeros : Nat → Nat → Nat × Nat
  | 0, m => (m, 0)
  | p + 1, m => if m % 10 = 0 then shedZeros p (m / 10) else (m, p + 1)

/-- The mantissa and the places of `m · 2^e`, if it can be represented. -/
def ofBinary? (m : Nat) (e : Int) : Option (Nat × Nat) := do
  let (m, t) ← if e < 0 then some (timesFives (-e).toNat m e) else overFives e.toNat m e
  let m ← timesTens t.toNat m
  let (m, p) := if 28 < -t then shedPlaces (-t - 28).toNat m else (m, (-t).toNat)
  let (m, p) := shedNoise p m
  return shedZeros p m

/-- The decimal of a double; none if it is not finite or too large. -/
def ofFloat? (x : Float) : Option FixedDecimal :=
  match x.toModel.unpack with
  | .notANumber | .infinity _ => none
  | .zero s => some ⟨s == .negative, 0, 0⟩
  | .finite s m e _ => (ofBinary? m e).map fun (m, p) => ⟨s == .negative, m, p⟩

/-! ## Rounding and writing -/

/-- `n / d`, rounded to the nearest integer, halves to the even one. -/
def halfEven (n d : Nat) : Nat :=
  let q := n / d
  if 2 * (n % d) < d then q
  else if d < 2 * (n % d) then q + 1
  else q + q % 2

/-- `d` with at most `p` places. -/
def roundTo (d : FixedDecimal) (p : Nat) : FixedDecimal :=
  if d.places ≤ p then d
  else { d with mantissa := halfEven d.mantissa (Nat.pow 10 (d.places - p)), places := p }

/-- `d`, which has at most `p` places, with exactly `p` decimals.  Zero has no
    sign. -/
def text (d : FixedDecimal) (p : Nat) : String :=
  (if d.negative ∧ d.mantissa ≠ 0 then "-" else "") ++
    Digits.fixed (d.mantissa * Nat.pow 10 (p - d.places)) p

end FixedDecimal

end CourseCharts

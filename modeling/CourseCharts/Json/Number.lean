/-
  CourseCharts — numbers in JSON texts.

  A `Numeral` is a number as it is written.  Its value, a `Number`, is an
  integer if it is written as one and fits into 64 bits, and a double
  otherwise.

  * `Numeral.scan?` reads a numeral off a text;
  * `Numeral.value?` is its value; a numeral beyond all doubles has none;
  * `Number.toScalar` and `Number.keyText` are a number to compute with and its
    text as a record key.
-/
import CourseCharts.Number.Scalar

namespace CourseCharts.Json

/-- A number as it is written: its digits before the point, after the point
    and its exponent. -/
structure Numeral where
  negative : Bool
  whole : List Nat
  fraction : Option (List Nat)
  exponent : Option Int
  deriving DecidableEq, Repr

/-- The value of a numeral. -/
inductive Number where
  | int (i : Int)
  | float (x : Float)
  deriving Repr

/-! ## Scanning -/

/-- The digits at the start of a text, and what follows them. -/
def scanDigits (cs : List Char) : List Nat × List Char :=
  ((cs.takeWhile Char.isDigit).map fun c => c.toNat - '0'.toNat, cs.dropWhile Char.isDigit)

/-- The number that digits stand for. -/
def ofDigits (ds : List Nat) : Nat := ds.foldl (fun n d => 10 * n + d) 0

/-- The digits after a point, of which there has to be one. -/
def scanFraction? : List Char → Option (Option (List Nat) × List Char)
  | '.' :: cs =>
    match scanDigits cs with
    | ([], _) => none
    | (ds, cs) => some (some ds, cs)
  | cs => some (none, cs)

/-- A minus sign that may be left out. -/
def scanMinus : List Char → Bool × List Char
  | '-' :: cs => (true, cs)
  | cs => (false, cs)

/-- A sign that may be left out. -/
def scanSign : List Char → Bool × List Char
  | '-' :: cs => (true, cs)
  | '+' :: cs => (false, cs)
  | cs => (false, cs)

/-- The exponent after an `e`. -/
def scanExponent? : List Char → Option (Option Int × List Char)
  | c :: cs =>
    if c = 'e' ∨ c = 'E' then
      let (negative, cs) := scanSign cs
      match scanDigits cs with
      | ([], _) => none
      | (ds, cs) => some (some (if negative then -ofDigits ds else ofDigits ds), cs)
    else some (none, c :: cs)
  | [] => some (none, [])

/-- The numeral at the start of a text, and what follows it.  A leading zero
    stands alone before the point. -/
def Numeral.scan? (cs : List Char) : Option (Numeral × List Char) := do
  let (negative, cs) := scanMinus cs
  let (whole, cs) := scanDigits cs
  match whole with
  | [] => none
  | 0 :: _ :: _ => none
  | _ =>
    let (fraction, cs) ← scanFraction? cs
    let (exponent, cs) ← scanExponent? cs
    return (⟨negative, whole, fraction, exponent⟩, cs)

/-! ## Values -/

/-- Appends digits to `n` as long as the result fits into 64 bits; also the
    digits left over. -/
def appendDigits (n : Nat) : List Nat → Nat × List Nat
  | [] => (n, [])
  | d :: ds => if 10 * n + d < UInt64.size then appendDigits (10 * n + d) ds else (n, d :: ds)

/-- The double of a power of ten. -/
def powerOfTen (k : Nat) : Float := Float.ofScientific 1 false k

/-- `n · 10^e`, rounded after every operation; powers up to `10^308` are
    doubles.  None if it is beyond all doubles. -/
def scaled? (n : Nat) (e : Int) : Option Float :=
  let x := Float.ofNat n
  if n = 0 then some 0.0
  else if 308 < e then none
  else if 0 ≤ e then
    let y := x * powerOfTen e.toNat
    if y.isFinite then some y else none
  else if -308 ≤ e then some (x / powerOfTen (-e).toNat)
  else if -616 ≤ e then some (x / powerOfTen 308 / powerOfTen (-e - 308).toNat)
  else some 0.0

/-- The double of a numeral: its leading digits as far as they fit into 64
    bits, times a power of ten. -/
def Numeral.float? (s : Numeral) : Option Float :=
  let fraction := s.fraction.getD []
  let (n, more) := appendDigits 0 s.whole
  let (n, rest) := appendDigits n fraction
  let e := s.exponent.getD 0 + more.length - (fraction.length - rest.length)
  (scaled? n e).map fun x => if s.negative then -x else x

/-- The value of a numeral.  The integer zero has no sign, so `-0` is a
    double. -/
def Numeral.value? (s : Numeral) : Option Number :=
  let n := ofDigits s.whole
  if s.fraction.isNone && s.exponent.isNone && !s.negative && n < UInt64.size then
    some (.int n)
  else if s.fraction.isNone && s.exponent.isNone && s.negative && 0 < n && n ≤ UInt64.size / 2 then
    some (.int (-n))
  else s.float?.map .float

/-- The number to compute with. -/
def Number.toScalar {α : Type} [Scalar α] : Number → α
  | int i => Scalar.ofInt i
  | float x => Scalar.ofFloat x

/-- The text of a number as a record key. -/
def Number.keyText : Number → String
  | int i => toString i
  | float x => Double.keyText x

end CourseCharts.Json

/-
  CourseCharts — the shortest decimal text of a double.

  A finite nonzero double `m · 2^e` owns a window of real numbers, those that
  round to it.  Its text is made of the fewest digits that name a number of
  that window.

  * `Window` is the window and `Window.candidate?` its number on a decimal
    grid, if one of the two grid points around the double lies in it: the
    nearer one, and of two equally near the one that `Tie` says;
  * `shortest` is the number on the coarsest grid that has one;
  * `positional` and `scientific` write `n · 10^k` without and with an
    exponent;
  * `text` is the text shown on a chart, `keyText` the text of a number that
    serves as a record key.
-/
namespace CourseCharts

/-- The decimal number `significand · 10^exponent`. -/
structure Digits where
  significand : Nat
  exponent : Int
  deriving DecidableEq, Repr

namespace Digits

/-- `n / 10^places` with exactly `places` decimals, and no point for none. -/
def fixed (n places : Nat) : String :=
  if places = 0 then toString n
  else
    let decimals := toString (n % Nat.pow 10 places)
    toString (n / Nat.pow 10 places) ++ "." ++
      String.ofList (List.replicate (places - decimals.length) '0') ++ decimals

/-- `d` written without an exponent. -/
def positional (d : Digits) : String :=
  if 0 ≤ d.exponent then fixed (d.significand * Nat.pow 10 d.exponent.toNat) 0
  else fixed d.significand (-d.exponent).toNat

/-- The power of ten of the leading digit of `d`. -/
def magnitude (d : Digits) : Int :=
  d.exponent + (toString d.significand).length - 1

/-- `d` written as one digit, its decimals if there are any, and an exponent
    that always carries its sign. -/
def scientific (d : Digits) : String :=
  let sign := if 0 ≤ d.magnitude then "+" else "-"
  match (toString d.significand).toList with
  | [] => ""
  | [c] => String.ofList [c] ++ "e" ++ sign ++ toString d.magnitude.natAbs
  | c :: cs => String.ofList (c :: '.' :: cs) ++ "e" ++ sign ++ toString d.magnitude.natAbs

end Digits

namespace Double

/-- The numbers that round to the double `mid · 2^q`: from `low · 2^q` to
    `high · 2^q`, with both ends if `closed`. -/
structure Window where
  low : Nat
  mid : Nat
  high : Nat
  q : Int
  closed : Bool
  deriving Repr

/-- The window of `m · 2^e`, in quarters of its last place.  The next double
    below a power of two is only half as far away as the next one above; a tie
    goes to the even neighbour, so an even double owns both ends. -/
def Window.of (m : Nat) (e : Int) : Window where
  low := if m = Nat.pow 2 52 ∧ -1074 < e then 4 * m - 1 else 4 * m - 2
  mid := 4 * m
  high := 4 * m + 2
  q := e - 2
  closed := m % 2 = 0

/-- Twice two fractions `(up, down)` such that `x · 2^q` is `x · up / down`
    units of `10^k`. -/
def Window.units (w : Window) (k : Int) : Nat × Nat :=
  (Nat.pow 2 w.q.toNat * Nat.pow 10 (-k).toNat, Nat.pow 2 (-w.q).toNat * Nat.pow 10 k.toNat)

/-- Whether `c · 10^k` lies in the window. -/
def Window.contains (w : Window) (c : Nat) (k : Int) : Bool :=
  let (up, down) := w.units k
  if w.closed then w.low * up ≤ c * down && c * down ≤ w.high * up
  else w.low * up < c * down && c * down < w.high * up

/-- Which of two equally near numbers is taken. -/
inductive Tie where
  | larger
  | even
  deriving DecidableEq, Repr

/-- Whether `c` is taken rather than `c + 1` if both are equally near. -/
def Tie.takesLower (tie : Tie) (c : Nat) : Bool := tie == .even && c % 2 == 0

/-- The multiple of `10^k` in the window that is nearest to its middle, if one
    of the two around the middle lies in the window. -/
def Window.candidate? (tie : Tie) (w : Window) (k : Int) : Option Nat :=
  let (up, down) := w.units k
  let c := w.mid * up / down
  match w.contains c k, w.contains (c + 1) k with
  | true, true =>
    match compare (2 * (w.mid * up)) ((2 * c + 1) * down) with
    | .lt => some c
    | .eq => if tie.takesLower c then some c else some (c + 1)
    | .gt => some (c + 1)
  | true, false => some c
  | false, true => some (c + 1)
  | false, false => none

/-- The first candidate on the grids `10^k`, `10^(k-1)`, …, at most `fuel` of
    them. -/
def Window.search (tie : Tie) (w : Window) : Nat → Int → Digits
  | 0, k => ⟨w.mid * (w.units k).1 / (w.units k).2, k⟩
  | fuel + 1, k =>
    match w.candidate? tie k with
    | some c => ⟨c, k⟩
    | none => w.search tie fuel (k - 1)

/-- The fewest digits that round to `m · 2^e`.  The search starts above the
    leading digit, and seventeen digits always suffice. -/
def shortest (tie : Tie) (m : Nat) (e : Int) : Digits :=
  (Window.of m e).search tie 21 ((m.log2 + e + 1) * 30103 / 100000 + 2)

/-- The text of a double: shortest digits, the larger of two equally near
    numbers, without an exponent. -/
def text (x : Float) : String :=
  match x.toModel.unpack with
  | .notANumber => "NaN"
  | .infinity .positive => "inf"
  | .infinity .negative => "-inf"
  | .zero .positive => "0"
  | .zero .negative => "-0"
  | .finite .positive m e _ => (shortest .larger m e).positional
  | .finite .negative m e _ => "-" ++ (shortest .larger m e).positional

/-- The text of a positive double as a record key: with at least one decimal
    from `1e-5` up to `1e16`, with an exponent outside. -/
def keyDigits (d : Digits) : String :=
  if -5 ≤ d.magnitude ∧ d.magnitude < 16 then
    if 0 ≤ d.exponent then d.positional ++ ".0" else d.positional
  else d.scientific

/-- The text of a double as a record key: shortest digits, the even one of two
    equally near numbers. -/
def keyText (x : Float) : String :=
  match x.toModel.unpack with
  | .notANumber | .infinity _ => "null"
  | .zero .positive => "0.0"
  | .zero .negative => "-0.0"
  | .finite .positive m e _ => keyDigits (shortest .even m e)
  | .finite .negative m e _ => "-" ++ keyDigits (shortest .even m e)

end Double

end CourseCharts

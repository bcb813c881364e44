/-
  CourseCharts — the integers around a double.

  A finite double is `± m · 2^e`, so the integers around it are found in exact
  `Nat` arithmetic.

  * `floorInt` is the greatest integer not above a double, `floor` the same as
    a double;
  * `round` is the nearest integer as a double, halves away from zero.

  What is not finite stays as it is where the answer is a double.  As an
  integer, NaN counts as zero and an infinity as an integer beyond every
  finite double.
-/
namespace CourseCharts.Double

/-- The whole part of `m · 2^e`. -/
def whole (m : Nat) (e : Int) : Nat :=
  m * Nat.pow 2 e.toNat / Nat.pow 2 (-e).toNat

/-- What `whole` leaves over, in units of `2^e` (none if `e` is not negative). -/
def leftover (m : Nat) (e : Int) : Nat :=
  m * Nat.pow 2 e.toNat % Nat.pow 2 (-e).toNat

/-- The integer nearest to `m · 2^e`, halves upwards. -/
def nearest (m : Nat) (e : Int) : Nat :=
  (2 * (m * Nat.pow 2 e.toNat) + Nat.pow 2 (-e).toNat) / (2 * Nat.pow 2 (-e).toNat)

/-- An integer above every finite double. -/
def beyond : Int := Nat.pow 2 1024

/-- The greatest integer not above `x`. -/
def floorInt (x : Float) : Int :=
  match x.toModel.unpack with
  | .notANumber | .zero _ => 0
  | .infinity .positive => beyond
  | .infinity .negative => -beyond
  | .finite .positive m e _ => whole m e
  | .finite .negative m e _ => -(whole m e + if leftover m e = 0 then 0 else 1)

/-- The greatest whole double not above `x`. -/
def floor (x : Float) : Float :=
  match x.toModel.unpack with
  | .finite .. => Float.ofInt (floorInt x)
  | _ => x

/-- The whole double nearest to `x`, halves away from zero. -/
def round (x : Float) : Float :=
  match x.toModel.unpack with
  | .finite .positive m e _ => Float.ofNat (nearest m e)
  | .finite .negative m e _ => -Float.ofNat (nearest m e)
  | _ => x

end CourseCharts.Double

/-
  CourseCharts — the rational numbers that doubles are.

  * `value` is the number that the parts of a double stand for, `value_unpack`
    says that it is `ratOfFloat` of the double;
  * `Proper` parts are those of a finite double, so that their exponents and
    mantissas are in the order of the numbers (`compare_value`);
  * `le_iff_rat` and the like: finite doubles are compared as the numbers
    they are.
-/
import CourseCharts.Proofs.Number.Overflow

namespace CourseCharts.Double

open Float.Model Float.Model.UnpackedFloat
open Scalar (ratOfFloat)

/-! ## Values -/

/-- The number with these parts; zero if they are not those of a number. -/
def value : UnpackedFloat → Rat
  | .finite s m e _ => s.apply m * 2 ^ e
  | _ => 0

/-- A power of two in a smaller unit. -/
theorem two_zpow_eq {e g : Int} (h : g ≤ e) : (2 : Rat) ^ e = 2 ^ (e - g).toNat * 2 ^ g := by
  rw [← zpow_natCast, ← zpow_add₀ two_ne_zero]
  congr 1
  omega

theorem ofBinary_eq (m : Nat) (e : Int) : Scalar.ofBinary m e = m * 2 ^ e := by
  unfold Scalar.ofBinary
  obtain ⟨k, rfl | rfl⟩ := e.eq_nat_or_neg
  · simp
  · simp [div_eq_mul_inv]

theorem value_unpack (x : Float) : value x.toModel.unpack = ratOfFloat x := by
  unfold ratOfFloat value
  split
  next s m e _ hu =>
    rw [hu]
    cases s <;> simp [ofBinary_eq, Sign.apply]
  next hu =>
    split
    next hu' => exact absurd hu' (hu _ _ _ _)
    next hu' => exact absurd hu' (hu _ _ _ _)
    next => rfl

/-! ## Order -/

/-- The parts of a finite double, whose exponent may be too large. -/
def Proper : UnpackedFloat → Prop
  | .zero _ => True
  | .finite _ m e _ => Canonical m e
  | _ => False

theorem proper_unpack {x : Float} (h : x.isFinite = true) : Proper x.toModel.unpack := by
  change x.toModel.unpack.isFinite = true at h
  cases hu : x.toModel.unpack with
  | zero => trivial
  | finite => exact canonical_unpack hu
  | _ =>
    rw [hu] at h
    cases h

/-- Of two positive numbers the one with the smaller exponent is smaller. -/
theorem Canonical.lt {m n : Nat} {e f : Int} (hm : Canonical m e) (hn : Canonical n f)
    (h : e < f) : (m : Rat) * 2 ^ e < n * 2 ^ f := by
  have hfull : 2 ^ 52 ≤ n := hn.2.2.resolve_right (by have := hm.2.1; omega)
  have hbits : (m : Rat) < 2 ^ 53 := by exact_mod_cast hm.1
  calc (m : Rat) * 2 ^ e < 2 ^ 53 * 2 ^ e := by gcongr
    _ = 2 ^ 52 * 2 ^ (e + 1) := by rw [zpow_add₀ two_ne_zero]; ring
    _ ≤ 2 ^ 52 * 2 ^ f := by gcongr; exacts [one_le_two, h]
    _ ≤ n * 2 ^ f := by gcongr; exact_mod_cast hfull

theorem compare_parts {m n : Nat} {e f : Int} (hm : Canonical m e) (hn : Canonical n f) :
    (compare e f).then (compare m n) = cmp ((m : Rat) * 2 ^ e) (n * 2 ^ f) := by
  rcases lt_trichotomy e f with h | rfl | h
  · rw [Int.compare_eq_lt.2 h, (cmp_eq_lt_iff _ _).2 (hm.lt hn h)]
    rfl
  · have hpos : (0 : Rat) < 2 ^ e := by positivity
    rw [Int.compare_eq_eq.2 rfl]
    rcases lt_trichotomy m n with h | rfl | h
    · rw [Ordering.eq_then, Nat.compare_eq_lt.2 h, eq_comm, cmp_eq_lt_iff]
      gcongr
    · rw [Ordering.eq_then, Nat.compare_eq_eq.2 rfl, eq_comm, cmp_eq_eq_iff]
    · rw [Ordering.eq_then, Nat.compare_eq_gt.2 h, eq_comm, cmp_eq_gt_iff]
      gcongr
  · rw [Int.compare_eq_gt.2 h, (cmp_eq_gt_iff _ _).2 (hn.lt hm h)]
    rfl

theorem value_pos {m : Nat} {e : Int} (hm : 0 < m) : 0 < value (.finite .positive m e hm) := by
  simp only [value, Sign.apply, Int.cast_natCast]
  positivity

theorem value_neg (m : Nat) (e : Int) (hm : 0 < m) :
    value (.finite .negative m e hm) = -value (.finite .positive m e hm) := by
  simp [value, Sign.apply]

theorem value_zero (s : Sign) : value (.zero s) = 0 := rfl

/-- Doubles are compared by their exponents first, and so are their values. -/
theorem compare_value {u v : UnpackedFloat} (hu : Proper u) (hv : Proper v) :
    u.compare v = some (cmp (value u) (value v)) := by
  have hlt {q r : Rat} (h : q < r) : some .lt = some (cmp q r) := by
    rw [(cmp_eq_lt_iff q r).2 h]
  have hgt {q r : Rat} (h : r < q) : some .gt = some (cmp q r) := by
    rw [(cmp_eq_gt_iff q r).2 h]
  cases u with
  | notANumber => exact hu.elim
  | infinity => exact hu.elim
  | zero s =>
    cases v with
    | notANumber => exact hv.elim
    | infinity => exact hv.elim
    | zero => rw [value_zero, value_zero, cmp_self_eq_eq]; rfl
    | finite t n f hn =>
      have hpos := value_pos (e := f) hn
      cases t with
      | positive => exact hlt hpos
      | negative => exact hgt (by rw [value_neg, value_zero]; linarith)
  | finite s m e hm =>
    have hpos := value_pos (e := e) hm
    cases v with
    | notANumber => exact hv.elim
    | infinity => exact hv.elim
    | zero =>
      cases s with
      | positive => exact hgt hpos
      | negative => exact hlt (by rw [value_neg, value_zero]; linarith)
    | finite t n f hn =>
      have hpos' := value_pos (e := f) hn
      cases s with
      | positive =>
        cases t with
        | positive => simpa [UnpackedFloat.compare, value, Sign.apply] using compare_parts hu hv
        | negative => exact hgt (by rw [value_neg]; linarith)
      | negative =>
        cases t with
        | positive => exact hlt (by rw [value_neg]; linarith)
        | negative =>
          rw [value_neg, value_neg, UnpackedFloat.compare, compare_parts hu hv, cmp_swap]
          simp [value, Sign.apply, cmp, cmpUsing]

section
variable {x y : Float} (hx : x.isFinite = true) (hy : y.isFinite = true)

include hx hy

theorem compare_unpack :
    x.toModel.unpack.compare y.toModel.unpack = some (cmp (ratOfFloat x) (ratOfFloat y)) := by
  rw [compare_value (proper_unpack hx) (proper_unpack hy), value_unpack, value_unpack]

theorem lt_iff_rat : x < y ↔ ratOfFloat x < ratOfFloat y := by
  rw [lt_iff, compare_unpack hx hy, Option.some_inj, cmp_eq_lt_iff]

theorem beq_iff_rat : (x == y) = true ↔ ratOfFloat x = ratOfFloat y := by
  rw [beq_iff, compare_unpack hx hy, Option.some_inj, cmp_eq_eq_iff]

theorem le_iff_rat : x ≤ y ↔ ratOfFloat x ≤ ratOfFloat y := by
  constructor
  · intro h
    by_contra hlt
    exact not_le_of_lt ((lt_iff_rat hy hx).2 (not_le.1 hlt)) h
  · intro h
    by_contra hlt
    exact not_lt.2 h ((lt_iff_rat hy hx).1 (lt_of_not_le hx hy hlt))

end

end CourseCharts.Double

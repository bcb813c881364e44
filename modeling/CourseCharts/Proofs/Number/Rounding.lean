/-
  CourseCharts — rounding of doubles.

  A number that is rounded is as near to what it was as any number with at most
  53 bits.

  * `Locates`: what the bits of an extended mantissa say of a number, also
    after a shift (`Locates.shiftRight`);
  * `Representable` numbers have at most 53 bits, `Nearest` ones are as near to a
    number as these;
  * `nearest_shifted`: so is a mantissa that is rounded by half a unit, and
    `ofShifted_again` adjusts its exponent;
  * `round_nearest` and `normalize_nearest`: what rounding gives.
-/
import CourseCharts.Proofs.Number.Magnitude
import CourseCharts.Proofs.Number.Value

namespace CourseCharts.Double

open Float.Model Float.Model.UnpackedFloat
open Scalar (ratOfFloat)

/-! ## Bits -/

/-- The bits of an extended mantissa tell in which part of the unit above the mantissa a
    number lies. -/
def Locates (em : ExtendedMantissa) (q : Rat) : Prop :=
  match em.accuracy with
  | .exact => q = em.mantissa
  | .inexact .lt => em.mantissa < q ∧ q < em.mantissa + 1 / 2
  | .inexact .eq => q = em.mantissa + 1 / 2
  | .inexact .gt => em.mantissa + 1 / 2 < q ∧ q < em.mantissa + 1

namespace Locates

variable {em : ExtendedMantissa} {q : Rat}

theorem exact (m : Nat) : Locates ⟨m, false, false⟩ m := rfl

theorem shiftRightOne (h : Locates em q) : Locates em.shiftRightOne (q / 2) := by
  obtain ⟨m, r, s⟩ := em
  obtain ⟨j, rfl | rfl⟩ := m.even_or_odd'
  all_goals
    have hdiv : (2 * j + 1) / 2 = j := by omega
    cases r <;> cases s <;>
      simp [Locates, ExtendedMantissa.accuracy, ExtendedMantissa.shiftRightOne, hdiv] at h ⊢ <;>
      (try constructor) <;> linarith

theorem shiftRight (h : Locates em q) (k : Nat) : Locates (em >>> k) (q / 2 ^ k) := by
  change Locates (k.repeat ExtendedMantissa.shiftRightOne em) _
  induction k with
  | zero => simpa [Nat.repeat] using h
  | succ k ih =>
    rw [pow_succ, ← div_div]
    exact ih.shiftRightOne

/-- The mantissa is rounded by half a unit at most. -/
theorem rounded (h : Locates em q) : |(em.roundedMantissa : Rat) - q| ≤ 1 / 2 := by
  obtain ⟨m, r, s⟩ := em
  rw [abs_le]
  obtain ⟨j, rfl | rfl⟩ := m.even_or_odd'
  all_goals
    cases r <;> cases s <;>
      simp [Locates, ExtendedMantissa.accuracy, ExtendedMantissa.roundedMantissa,
        Accuracy.roundToNearestEven] at h ⊢ <;>
      constructor <;> linarith

end Locates

/-! ## Nearest numbers -/

/-- A number with at most 53 bits, none of which is too small for a double.  It may be too
    large for one. -/
def Representable (q : Rat) : Prop :=
  ∃ n e : Int, n.natAbs ≤ 2 ^ 53 ∧ -1074 ≤ e ∧ q = n * 2 ^ e

theorem Representable.neg {q : Rat} (h : Representable q) : Representable (-q) := by
  obtain ⟨n, e, hn, he, rfl⟩ := h
  exact ⟨-n, e, by rwa [Int.natAbs_neg], he, by push_cast; ring⟩

theorem representable_zero : Representable 0 := ⟨0, 0, by decide, by decide, by simp⟩

theorem representable_value {u : UnpackedFloat} (h : Proper u) : Representable (value u) := by
  cases u with
  | notANumber => exact h.elim
  | infinity => exact h.elim
  | zero => exact representable_zero
  | finite s m e hm =>
    refine ⟨s.apply m, e, ?_, h.2.1, rfl⟩
    rw [natAbs_apply]
    exact h.1.le

theorem representable_ratOfFloat {x : Float} (h : x.isFinite = true) :
    Representable (ratOfFloat x) := by
  rw [← value_unpack]
  exact representable_value (proper_unpack h)

/-- The parts of a number that is as near to `q` as any. -/
structure Nearest (q : Rat) (u : UnpackedFloat) : Prop where
  proper : Proper u
  least : ∀ r, Representable r → |value u - q| ≤ |r - q|

namespace Nearest

variable {q r : Rat} {u : UnpackedFloat}

theorem of_eq (hu : Proper u) (h : value u = q) : Nearest q u :=
  ⟨hu, fun r _ => by rw [h, sub_self, abs_zero]; exact abs_nonneg _⟩

/-- Rounding does not go past a number. -/
theorem le (h : Nearest q u) (hr : Representable r) (hqr : q ≤ r) : value u ≤ r := by
  by_contra hlt
  rw [not_le] at hlt
  have hleast := h.least r hr
  rw [abs_of_nonneg (by linarith), abs_of_nonneg (by linarith)] at hleast
  linarith

theorem ge (h : Nearest q u) (hr : Representable r) (hqr : r ≤ q) : r ≤ value u := by
  by_contra hlt
  rw [not_le] at hlt
  have hleast := h.least r hr
  rw [abs_of_nonpos (by linarith), abs_of_nonpos (by linarith)] at hleast
  linarith

end Nearest

/-! ## Rounding -/

/-- A number that is rounded by half a unit at most is a nearest multiple of the unit. -/
theorem nearest_int {n : Int} {q : Rat} (h : |n - q| ≤ 1 / 2) (k : Int) : |n - q| ≤ |k - q| := by
  rcases eq_or_ne n k with rfl | hne
  · exact le_rfl
  · have hone : (1 : Rat) ≤ |(n : Rat) - k| := by
      exact_mod_cast Int.one_le_abs (sub_ne_zero.2 hne)
    have htriangle : |(n : Rat) - k| ≤ |n - q| + |k - q| := by
      rw [abs_sub_comm (k : Rat) q]
      exact abs_sub_le _ _ _
    linarith

/-- The parts with a mantissa and an exponent. -/
def ofShifted (s : Sign) (p : ExtendedMantissa × Int) : UnpackedFloat :=
  if h : p.1.mantissa = 0 then .zero s
  else .finite s p.1.mantissa p.2 (Nat.pos_of_ne_zero h)

theorem value_ofShifted (s : Sign) (p : ExtendedMantissa × Int) :
    value (ofShifted s p) = s.apply p.1.mantissa * 2 ^ p.2 := by
  unfold ofShifted
  split
  next h => cases s <;> simp [h, value, Sign.apply]
  next => rfl

theorem proper_ofShifted (s : Sign) {p : ExtendedMantissa × Int}
    (h : p.1.mantissa ≠ 0 → Canonical p.1.mantissa p.2) : Proper (ofShifted s p) := by
  unfold ofShifted
  split
  next => trivial
  next hne => exact h hne

theorem le_roundedMantissa (em : ExtendedMantissa) : em.mantissa ≤ em.roundedMantissa := by
  unfold ExtendedMantissa.roundedMantissa Accuracy.roundToNearestEven
  split <;> omega

/-- Rounding shifts twice: rounding up may give the mantissa one more bit. -/
theorem roundWithAccuracy_eq (s : Sign) (m : Nat) (e : Int) (acc : Accuracy) :
    roundWithAccuracy Format.binary64 s m e acc =
      let first := shiftToTargetExponent Format.binary64 m e acc
      ofShifted s (shiftToTargetExponent Format.binary64 first.1.roundedMantissa first.2 .exact) :=
  rfl

/-- The second shift makes the parts proper without changing their value. -/
theorem ofShifted_again (s : Sign) {r : Nat} {t : Int} (hbits : r ≤ 2 ^ 53) (ht : -1074 ≤ t)
    (hfull : 2 ^ 52 ≤ r ∨ t = -1074) :
    let u := ofShifted s (shiftToTargetExponent Format.binary64 r t .exact)
    Proper u ∧ value u = s.apply r * 2 ^ t := by
  intro u
  rcases hbits.lt_or_eq with hlt | rfl
  · have hcanonical : Canonical r t := ⟨hlt, ht, hfull⟩
    rcases r.eq_zero_or_pos with rfl | hpos
    · have hmantissa : (shiftToTargetExponent Format.binary64 0 t .exact).1.mantissa = 0 := by
        simp [shiftToTargetExponent, shiftToExponent, shiftRight_mantissa,
          ofMantissaAndAccuracy_mantissa]
      refine ⟨proper_ofShifted s fun hne => absurd hmantissa hne, ?_⟩
      rw [value_ofShifted, hmantissa]
      cases s <;> simp [Sign.apply]
    · have hshift := shift_exact hpos hcanonical 0
      simp only [Nat.pow_zero, Nat.mul_one, Int.ofNat_zero, Int.sub_zero] at hshift
      refine ⟨proper_ofShifted s fun _ => ?_, ?_⟩
      · rwa [hshift]
      · rw [value_ofShifted, hshift]
  · have hcanonical : Canonical (2 ^ 52) (t + 1) := ⟨by decide, by omega, .inl le_rfl⟩
    have hshift := shift_exact (by decide) hcanonical 1
    have hexponent : t + 1 - ((1 : Nat) : Int) = t := by omega
    have hmantissa : 2 ^ 52 * 2 ^ 1 = 2 ^ 53 := by norm_num
    rw [hexponent, hmantissa] at hshift
    refine ⟨proper_ofShifted s fun _ => ?_, ?_⟩
    · rwa [hshift]
    · rw [value_ofShifted, hshift, zpow_add₀ two_ne_zero]
      cases s <;> simp [Sign.apply] <;> ring

/-- A positive number that is shifted to at most 53 bits and rounded is nearest to what it
    was. -/
theorem nearest_shifted {m k : Nat} {e t : Int} (hm : 0 < m) (hk : e + k = t)
    (ht : t = max ((m.log2 : Int) + 1 + e - 53) (-1074)) {r : Nat}
    (hr : |(r : Rat) - m / 2 ^ k| ≤ 1 / 2) (v : Rat) (hv : Representable v) :
    |(r : Rat) * 2 ^ t - m * 2 ^ e| ≤ |v - m * 2 ^ e| := by
  have hpos : (0 : Rat) < 2 ^ t := by positivity
  have hunit : (m : Rat) * 2 ^ e = m / 2 ^ k * 2 ^ t := by
    rw [← hk, zpow_add₀ two_ne_zero, zpow_natCast]
    field_simp
  -- among the multiples of the unit there is none that is nearer
  have hgrid (j : Int) : |(r : Rat) * 2 ^ t - m * 2 ^ e| ≤ |(j : Rat) * 2 ^ t - m * 2 ^ e| := by
    rw [hunit, ← sub_mul, ← sub_mul, abs_mul, abs_mul]
    exact mul_le_mul_of_nonneg_right (nearest_int (n := r) (by exact_mod_cast hr) j)
      (abs_nonneg _)
  obtain ⟨n, f, hn, hf, rfl⟩ := hv
  rcases le_or_gt t f with htf | hft
  · have hmultiple : (n : Rat) * 2 ^ f = (n * 2 ^ (f - t).toNat : Int) * 2 ^ t := by
      rw [two_zpow_eq htf]
      push_cast
      ring
    rw [hmultiple]
    exact hgrid _
  · -- with a smaller unit there are only smaller numbers, and `2^52` units are between
    have hbelow : (n : Rat) * 2 ^ f ≤ (2 ^ 52 : Int) * 2 ^ t := by
      have hn' : (n : Rat) ≤ 2 ^ 53 := by
        have : n ≤ 2 ^ 53 := by omega
        exact_mod_cast this
      calc (n : Rat) * 2 ^ f ≤ 2 ^ 53 * 2 ^ (t - 1) := by
            gcongr
            · exact one_le_two
            · omega
        _ = (2 ^ 52 : Int) * 2 ^ t := by
            rw [zpow_sub₀ two_ne_zero]
            push_cast
            ring
    have habove : ((2 ^ 52 : Int) : Rat) * 2 ^ t ≤ m * 2 ^ e := by
      have hlog : ((2 ^ m.log2 : Nat) : Rat) ≤ m := by exact_mod_cast Nat.log2_self_le hm.ne'
      have ht' : (52 : Int) + t = m.log2 + e := by omega
      calc ((2 ^ 52 : Int) : Rat) * 2 ^ t = 2 ^ ((52 : Int) + t) := by
            rw [zpow_add₀ two_ne_zero]
            norm_num
        _ = (2 ^ m.log2 : Nat) * 2 ^ e := by
            rw [ht', zpow_add₀ two_ne_zero, zpow_natCast]
            push_cast
            rfl
        _ ≤ m * 2 ^ e := by gcongr
    refine (hgrid (2 ^ 52)).trans ?_
    rw [abs_of_nonpos (by linarith), abs_of_nonpos (by linarith)]
    linarith

theorem roundWithAccuracy_nearest (s : Sign) {m : Nat} {e : Int} (hm : 0 < m)
    (he : e ≤ max ((m.log2 : Int) + 1 + e - 53) (-1074)) :
    Nearest (s.apply m * 2 ^ e) (roundWithAccuracy Format.binary64 s m e .exact) := by
  set t := max ((m.log2 : Int) + 1 + e - 53) (-1074) with ht
  have hk : e + (t - e).toNat = t := by omega
  set k := (t - e).toNat
  have hfirst : shiftToTargetExponent Format.binary64 m e .exact
      = ((⟨m, false, false⟩ : ExtendedMantissa) >>> k, t) := by
    simp only [shiftToTargetExponent, shiftToExponent, target_eq, ← ht,
      ExtendedMantissa.ofMantissaAndAccuracy]
    exact Prod.ext rfl hk
  set em := (⟨m, false, false⟩ : ExtendedMantissa) >>> k
  have hlocates : Locates em (m / 2 ^ k) := (Locates.exact m).shiftRight k
  have hmantissa : em.mantissa = m / 2 ^ k := shiftRight_mantissa _ k
  have hbits : em.roundedMantissa ≤ 2 ^ 53 := by
    have hfit := (shift_spec m e .exact).1
    rw [hfirst] at hfit
    exact (roundedMantissa_le em).trans hfit
  have hfull : 2 ^ 52 ≤ em.roundedMantissa ∨ t = -1074 := by
    rcases eq_or_ne t (-1074) with hleast | hne
    · exact .inr hleast
    · have hlog : 52 + k = m.log2 := by omega
      refine .inl (le_trans ?_ (le_roundedMantissa em))
      rw [hmantissa, Nat.le_div_iff_mul_le (Nat.two_pow_pos k), ← Nat.pow_add, hlog]
      exact Nat.log2_self_le hm.ne'
  obtain ⟨hproper, hvalue⟩ := ofShifted_again s hbits (le_max_right _ _) hfull
  rw [roundWithAccuracy_eq, hfirst]
  refine ⟨hproper, fun v hv => ?_⟩
  rw [hvalue]
  have hnearest := nearest_shifted hm hk ht hlocates.rounded
  cases s with
  | positive => simpa [Sign.apply] using hnearest v hv
  | negative =>
    have hneg (a b : Rat) : |-a - -b| = |a - b| := by rw [neg_sub_neg, abs_sub_comm]
    have hmirror := hnearest (-v) hv.neg
    rw [← hneg, ← hneg (-v), neg_neg] at hmirror
    simpa only [Sign.apply, Int.cast_neg, Int.cast_natCast, neg_mul] using hmirror

/-- The exponent is made smaller where there is room for more bits. -/
theorem round_nearest (s : Sign) {m : Nat} (hm : 0 < m) (e : Int) :
    Nearest (s.apply m * 2 ^ e) (UnpackedFloat.round Format.binary64 s m e) := by
  simp only [UnpackedFloat.round, decreaseExponent, target_eq]
  generalize hk : (e - max ((m.log2 : Int) + 1 + e - 53) (-1074)).toNat = k
  have hlog : (m <<< k).log2 = m.log2 + k := by rw [Nat.shiftLeft_eq, log2_mul_two_pow hm]
  have hvalue : ((s.apply m : Int) : Rat) * 2 ^ e =
      (s.apply (m <<< k : Nat) : Int) * 2 ^ (e - k) := by
    have he : e = k + (e - k) := by omega
    conv_lhs => rw [he, zpow_add₀ two_ne_zero, zpow_natCast]
    cases s <;> simp [Sign.apply, Nat.shiftLeft_eq] <;> ring
  rw [hvalue]
  refine roundWithAccuracy_nearest s ?_ (by omega)
  rw [Nat.shiftLeft_eq]
  positivity

theorem normalize_nearest (a e : Int) (s : Sign) :
    Nearest (a * 2 ^ e) (UnpackedFloat.normalize Format.binary64 a e s) := by
  simp only [UnpackedFloat.normalize]
  split
  next h =>
    have ha := Int.compare_eq_lt.1 h
    have hround := round_nearest .negative (m := (-a).toNat) (by omega) e
    rwa [Sign.apply, Int.toNat_of_nonneg (by omega), neg_neg] at hround
  next h =>
    rw [Int.compare_eq_eq.1 h]
    exact .of_eq trivial (by simp [value])
  next h =>
    have ha := Int.compare_eq_gt.1 h
    have hround := round_nearest .positive (m := a.toNat) (by omega) e
    rwa [Sign.apply, Int.toNat_of_nonneg (by omega)] at hround

end CourseCharts.Double

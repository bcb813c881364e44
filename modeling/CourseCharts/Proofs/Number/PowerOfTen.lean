/-
  CourseCharts — powers of ten in exact arithmetic.

  The logarithm of a rational number is found by counting digits.

  * `Scalar.log10_spec`: it is the exponent of the greatest power of ten that is
    not above the number;
  * `Scalar.powerOfTen_rat`: so `powerOfTen` is that power.
-/
import CourseCharts.Number.Scalar
import Mathlib.Data.Int.Log
import Mathlib.Data.Rat.Floor
import Mathlib.Tactic.Linarith

namespace CourseCharts.Scalar

variable {n d : Nat} {x : Rat}

/-! ## Digits -/

theorem digitCount_pos (n : Nat) : 0 < digitCount n := Nat.length_repr_pos

theorem lt_pow_digitCount (n : Nat) : n < 10 ^ digitCount n :=
  (Nat.length_repr_le_iff (digitCount_pos n)).1 le_rfl

/-- The first digit of a positive number is not zero. -/
theorem pow_digitCount_le (hn : 0 < n) : 10 ^ (digitCount n - 1) ≤ n := by
  rcases Nat.eq_zero_or_pos (digitCount n - 1) with hone | hmore
  · rw [hone]
    exact hn
  · by_contra hlt
    have hle : digitCount n ≤ digitCount n - 1 :=
      (Nat.length_repr_le_iff hmore).2 (not_le.1 hlt)
    omega

/-! ## Logarithms -/

/-- A number from one on has the logarithm of its whole part. -/
theorem log10_of_le (hd : 0 < d) (h : d ≤ n) :
    (10 : Rat) ^ log10 n d ≤ n / d ∧ (n / d : Rat) < 10 ^ (log10 n d + 1) := by
  have hpos : (0 : Rat) < d := by exact_mod_cast hd
  have hlow : d * 10 ^ (digitCount (n / d) - 1) ≤ n :=
    (Nat.mul_le_mul_left d (pow_digitCount_le (Nat.div_pos h hd))).trans (Nat.mul_div_le n d)
  have hhigh : n < 10 ^ digitCount (n / d) * d :=
    (Nat.div_lt_iff_lt_mul hd).1 (lt_pow_digitCount (n / d))
  have hlog : log10 n d = (digitCount (n / d) - 1 : Nat) := by
    rw [log10, if_pos h, Nat.cast_pred (digitCount_pos _)]
  have hsucc : log10 n d + 1 = digitCount (n / d) := by
    rw [log10, if_pos h, sub_add_cancel]
  constructor
  · rw [hlog, zpow_natCast, le_div_iff₀' hpos]
    exact_mod_cast hlow
  · rw [hsucc, zpow_natCast, div_lt_iff₀ hpos]
    exact_mod_cast hhigh

/-- The logarithm of a number below one counts the digits of what is below its inverse. -/
theorem log10_of_lt (hn : 0 < n) (h : n < d) :
    (10 : Rat) ^ log10 n d ≤ n / d ∧ (n / d : Rat) < 10 ^ (log10 n d + 1) := by
  obtain ⟨e, rfl⟩ : ∃ e, d = e + 1 := ⟨d - 1, by omega⟩
  have hpos : (0 : Rat) < (e + 1 : Nat) := by positivity
  have hwhole : (e + 1 + n - 1) / n - 1 = e / n := by
    rw [show e + 1 + n - 1 = e + n by omega, Nat.add_div_right e hn, Nat.succ_sub_one]
  have hlow : 10 ^ (digitCount (e / n) - 1) * n ≤ e :=
    (Nat.le_div_iff_mul_le hn).1 (pow_digitCount_le (Nat.div_pos (by omega) hn))
  have hhigh : e < 10 ^ digitCount (e / n) * n :=
    (Nat.div_lt_iff_lt_mul hn).1 (lt_pow_digitCount (e / n))
  have hlog : log10 n (e + 1) = -(digitCount (e / n) : Int) := by
    rw [log10, if_neg (by omega), hwhole]
  have hsucc : log10 n (e + 1) + 1 = -((digitCount (e / n) - 1 : Nat) : Int) := by
    rw [hlog, Nat.cast_pred (digitCount_pos _)]
    ring
  constructor
  · rw [hlog, zpow_neg, zpow_natCast, inv_le_iff_one_le_mul₀ (by positivity), div_mul_eq_mul_div,
      one_le_div hpos, mul_comm]
    exact_mod_cast hhigh
  · rw [hsucc, zpow_neg, zpow_natCast, lt_inv_comm₀ (by positivity) (by positivity), inv_div,
      lt_div_iff₀ (by positivity)]
    exact_mod_cast Nat.lt_succ_of_le hlow

theorem log10_spec (hn : 0 < n) (hd : 0 < d) :
    (10 : Rat) ^ log10 n d ≤ n / d ∧ (n / d : Rat) < 10 ^ (log10 n d + 1) := by
  rcases le_or_gt d n with h | h
  · exact log10_of_le hd h
  · exact log10_of_lt hn h

theorem tenPow_eq (k : Int) : tenPow k = 10 ^ k := by
  unfold tenPow
  split
  next hk =>
    rw [← Int.toNat_of_nonneg hk, zpow_natCast, Int.toNat_natCast]
    exact Nat.cast_pow 10 k.toNat
  next hk =>
    have hneg : k = -((-k).toNat : Int) := by omega
    rw [hneg, zpow_neg, zpow_natCast, neg_neg, Int.toNat_natCast, one_div]
    exact congrArg _ (Nat.cast_pow 10 (-k).toNat)

/-- The parts of a positive number. -/
theorem num_div_den (hx : 0 < x) : 0 < x.num.toNat ∧ (x.num.toNat / x.den : Rat) = x := by
  have hnum := Rat.num_pos.2 hx
  have hcast : ((x.num.toNat : Int) : Rat) = x.num := by rw [Int.toNat_of_nonneg hnum.le]
  refine ⟨by omega, ?_⟩
  rw [← Int.cast_natCast x.num.toNat, hcast, Rat.num_div_den]

/-- The greatest power of ten that is not above a positive number. -/
theorem powerOfTen_rat (hx : 0 < x) :
    ∃ k : Int, powerOfTen x = 10 ^ k ∧ (10 : Rat) ^ k ≤ x ∧ x < 10 ^ (k + 1) := by
  obtain ⟨hnum, hquotient⟩ := num_div_den hx
  obtain ⟨hlow, hhigh⟩ := log10_spec hnum x.den_pos
  rw [hquotient] at hlow hhigh
  exact ⟨log10 x.num.toNat x.den, tenPow_eq _, hlow, hhigh⟩

/-- A number between `10^k` and half of the next power of ten has `-k` decimals. -/
theorem decimals_rat {k : Int} (hlow : 10 ^ k ≤ x) (hhigh : x ≤ 5 * 10 ^ k) :
    decimals x = (-k).toNat := by
  have hpower : (0 : Rat) < 10 ^ k := zpow_pos (by norm_num) k
  obtain ⟨hnum, hquotient⟩ := num_div_den (hpower.trans_le hlow)
  obtain ⟨hle, hlt⟩ := log10_spec (Nat.mul_pos (by decide : 0 < 10) (Nat.pow_pos hnum))
    (Nat.pow_pos x.den_pos)
  have hscaled : ((10 * x.num.toNat ^ 100 : Nat) / (x.den ^ 100 : Nat) : Rat) = 10 * x ^ 100 := by
    push_cast
    rw [mul_div_assoc, ← div_pow, hquotient]
  rw [hscaled] at hle hlt
  change (-(log10 (10 * x.num.toNat ^ 100) (x.den ^ 100) / 100)).toNat = _
  generalize log10 (10 * x.num.toNat ^ 100) (x.den ^ 100) = l at hle hlt ⊢
  -- ten times the hundredth power of five is below the hundredth power of ten
  have hhundred (j : Int) : (10 : Rat) ^ (100 * j) = (10 ^ j) ^ 100 := by
    rw [← zpow_natCast, ← zpow_mul, mul_comm]
    rfl
  have hge : (10 : Rat) ^ (100 * k) < 10 ^ (l + 1) := by
    have hle : ((10 : Rat) ^ k) ^ 100 ≤ x ^ 100 := by gcongr
    have hpos : (0 : Rat) < (10 ^ k) ^ 100 := by positivity
    rw [hhundred]
    linarith
  have hbelow : (10 : Rat) ^ l < 10 ^ (100 * (k + 1)) := by
    have hnonneg := hpower.le.trans hlow
    have hle : x ^ 100 ≤ (5 * (10 : Rat) ^ k) ^ 100 := by gcongr
    have hpos : (0 : Rat) < (10 ^ k) ^ 100 := by positivity
    rw [hhundred, zpow_add_one₀ (by norm_num), mul_pow]
    rw [mul_pow] at hle
    norm_num at hle ⊢
    linarith
  have hge' := (zpow_lt_zpow_iff_right₀ (by norm_num : (1 : Rat) < 10)).1 hge
  have hbelow' := (zpow_lt_zpow_iff_right₀ (by norm_num : (1 : Rat) < 10)).1 hbelow
  congr 2
  omega

end CourseCharts.Scalar

/-
  CourseCharts — the labels of ticks.

  A label is the value of its tick, rounded as a decimal number.

  * `IsHalfEven`: an integer is what a number is rounded to;
  * `FixedDecimal.isDecimal_text`: what is written is the rounded decimal;
  * `tickPrecision_rat` and `tickPrecisionBy_eq`: the decimals of the steps
    `1`, `2` and `5` times a power of ten are enough to write their multiples;
  * `tick_labels_exact`: so the labels of multiples are exact and distinct.
-/
import CourseCharts.Proofs.Number.Exact
import CourseCharts.Proofs.Number.Numeral
import CourseCharts.Proofs.Number.PowerOfTen
import CourseCharts.Proofs.Number.Spacing
import CourseCharts.Proofs.Number.WholePart
import CourseCharts.Scale.Ticks
import Mathlib.Analysis.SpecialFunctions.Log.Base

namespace CourseCharts

/-! ## Halves to even -/

/-- The integer nearest to a number; of two that are equally near, the even one. -/
structure IsHalfEven (x : Rat) (n : Int) : Prop where
  near : |x - n| ≤ 1 / 2
  even : |x - n| = 1 / 2 → Even n

namespace IsHalfEven

variable {x : Rat} {n m : Int}

theorem of_lt (h : |x - n| < 1 / 2) : IsHalfEven x n := ⟨h.le, fun htie => absurd htie h.ne⟩

theorem of_tie (h : |x - n| = 1 / 2) (heven : Even n) : IsHalfEven x n := ⟨h.le, fun _ => heven⟩

theorem int (n : Int) : IsHalfEven n n := of_lt (by norm_num)

theorem neg (h : IsHalfEven x n) : IsHalfEven (-x) (-n) := by
  have hmirror : |-x - ((-n : Int) : Rat)| = |x - n| := by
    rw [Int.cast_neg, neg_sub_neg, abs_sub_comm]
  constructor
  · rw [hmirror]
    exact h.near
  · rw [hmirror]
    exact fun htie => (h.even htie).neg

/-- What is half a unit above an integer is rounded down if this is even, and else up. -/
theorem add_half (q : Nat) : IsHalfEven (q + 1 / 2) (q + q % 2 : Nat) := by
  obtain ⟨j, rfl | rfl⟩ := q.even_or_odd'
  · have heven : 2 * j % 2 = 0 := by omega
    rw [heven]
    refine of_tie ?_ ⟨j, by push_cast; ring⟩
    norm_num
  · have hodd : (2 * j + 1) % 2 = 1 := by omega
    rw [hodd]
    refine of_tie ?_ ⟨j + 1, by push_cast; ring⟩
    push_cast
    rw [add_sub_add_left_eq_sub]
    norm_num

/-- There is only one. -/
theorem unique (hn : IsHalfEven x n) (hm : IsHalfEven x m) : n = m := by
  by_contra hne
  have hapart : 1 ≤ |(n : Rat) - m| := by exact_mod_cast Int.one_le_abs (sub_ne_zero.2 hne)
  have htriangle := abs_sub_le (n : Rat) x m
  rw [abs_sub_comm (n : Rat) x] at htriangle
  have hnear := hn.near
  have hnear' := hm.near
  -- both are half a unit away, so that both are even
  have heven := hn.even (by linarith)
  have heven' := hm.even (by linarith)
  have hone : |(n : Rat) - m| = 1 := by linarith
  have hone' : |n - m| = 1 := by exact_mod_cast hone
  have hodd : Even |n - m| := even_abs.2 (heven.sub heven')
  rw [hone'] at hodd
  exact absurd hodd (by decide)

end IsHalfEven

namespace FixedDecimal

theorem halfEven_spec (n : Nat) {d : Nat} (hd : 0 < d) : IsHalfEven (n / d) (halfEven n d) := by
  have hd' : (0 : Rat) < d := by exact_mod_cast hd
  have hdiv : (n : Rat) = d * (n / d : Nat) + (n % d : Nat) := by
    exact_mod_cast (Nat.div_add_mod n d).symm
  have hlt := Nat.mod_lt n hd
  simp only [halfEven]
  generalize n / d = q at hdiv ⊢
  generalize n % d = r at hdiv hlt ⊢
  have hquotient : (n / d : Rat) = q + r / d := by
    rw [hdiv]
    field_simp
  have hnonneg : (0 : Rat) ≤ r / d := by positivity
  have hone : (r / d : Rat) < 1 := (div_lt_one hd').2 (by exact_mod_cast hlt)
  rw [hquotient]
  split
  next hbelow =>
    have hhalf : (r / d : Rat) < 1 / 2 := by
      rw [div_lt_div_iff₀ hd' two_pos]
      exact_mod_cast (by omega : r * 2 < 1 * d)
    refine .of_lt ?_
    rw [Int.cast_natCast, add_sub_cancel_left, abs_of_nonneg hnonneg]
    exact hhalf
  next hnotBelow =>
    split
    next habove =>
      have hhalf : 1 / 2 < (r / d : Rat) := by
        rw [div_lt_div_iff₀ two_pos hd']
        exact_mod_cast (by omega : 1 * d < r * 2)
      refine .of_lt ?_
      push_cast
      rw [add_sub_add_left_eq_sub, abs_of_nonpos (by linarith)]
      linarith
    next hnotAbove =>
      have hhalf : (r / d : Rat) = 1 / 2 := by
        rw [div_eq_div_iff hd'.ne' two_ne_zero]
        exact_mod_cast (by omega : r * 2 = 1 * d)
      rw [hhalf]
      exact .add_half q

variable (d : FixedDecimal) (p : Nat)

/-- The number that a decimal is. -/
def value : Rat := (if d.negative then -1 else 1) * (d.mantissa / 10 ^ d.places)

/-- The last places that are left when `d` is rounded to `p` places and written with so many. -/
def lastPlaces : Nat :=
  if d.places ≤ p then d.mantissa * 10 ^ (p - d.places)
  else halfEven d.mantissa (10 ^ (d.places - p))

theorem lastPlaces_spec : IsHalfEven (d.mantissa / 10 ^ d.places * 10 ^ p) (d.lastPlaces p) := by
  unfold lastPlaces
  split
  next hle =>
    have hexact : (d.mantissa / 10 ^ d.places * 10 ^ p : Rat) =
        (d.mantissa * 10 ^ (p - d.places) : Nat) := by
      rw [← Nat.sub_add_cancel hle, pow_add, Nat.add_sub_cancel]
      push_cast
      field_simp
    rw [hexact]
    exact .int _
  next hlt =>
    have hscale : (d.mantissa / 10 ^ d.places * 10 ^ p : Rat) =
        d.mantissa / (10 ^ (d.places - p) : Nat) := by
      obtain ⟨k, hk⟩ : ∃ k, d.places = k + p := ⟨d.places - p, by omega⟩
      rw [hk, pow_add, Nat.add_sub_cancel]
      push_cast
      field_simp
    rw [hscale]
    exact halfEven_spec _ (by positivity)

/-- What is written has a sign exactly if it is negative. -/
theorem text_roundTo :
    (d.roundTo p).text p = (if d.negative ∧ d.lastPlaces p ≠ 0 then "-" else "") ++
      Digits.fixed (d.lastPlaces p) p := by
  unfold roundTo lastPlaces text
  split <;> simp

/-- The text of a rounded decimal. -/
theorem isDecimal_text :
    ∃ n : Int, IsHalfEven (d.value * 10 ^ p) n ∧
      IsDecimal ((d.roundTo p).text p) p (n / 10 ^ p) := by
  have hspec := d.lastPlaces_spec p
  rw [text_roundTo, value]
  generalize d.lastPlaces p = m at hspec ⊢
  have hunsigned := isDecimal_unsigned m p
  cases d.negative with
  | false => exact ⟨m, by simpa using hspec, by simpa using hunsigned⟩
  | true =>
    refine ⟨-m, by simpa using hspec.neg, ?_⟩
    rcases Nat.eq_zero_or_pos m with rfl | hpos
    · simpa using hunsigned
    · have hdecimal := isDecimal_fixed true (fun _ => hpos) p
      simpa [hpos.ne', neg_div] using hdecimal

/-- A number with no more places is written as it is. -/
theorem isDecimal_text_of_int {n : Int} (h : d.value * 10 ^ p = n) :
    IsDecimal ((d.roundTo p).text p) p d.value := by
  obtain ⟨m, hm, hdecimal⟩ := d.isDecimal_text p
  rw [h] at hm
  rwa [← (IsHalfEven.int n).unique hm, ← h, mul_div_cancel_right₀ _ (by positivity)] at hdecimal

/-- The decimal number nearest to a double. -/
def valueOf? (v : Float) : Option Rat := (ofFloat? v).map value

theorem exists_tickText {v : Float} {x : Rat} (h : valueOf? v = some x) (p : Nat) :
    ∃ d : FixedDecimal, d.value = x ∧ Scalar.tickText v p = (d.roundTo p).text p := by
  obtain ⟨d, hd, rfl⟩ := Option.map_eq_some_iff.1 h
  exact ⟨d, rfl, by simp only [Scalar.tickText, hd]⟩

end FixedDecimal

/-! ## The decimals of a step -/

section
variable {c : Nat} (hc : c ∈ [1, 2, 5]) (k : Int)

include hc

theorem round_bounds : 1 ≤ c ∧ c ≤ 5 := by
  have hcases : c = 1 ∨ c = 2 ∨ c = 5 := by simpa using hc
  omega

theorem round_step_bounds :
    (10 : Rat) ^ k ≤ c * 10 ^ k ∧ (c * 10 ^ k : Rat) ≤ 5 * 10 ^ k := by
  obtain ⟨hlow, hhigh⟩ := round_bounds hc
  have hpower : (0 : Rat) < 10 ^ k := by positivity
  constructor
  · exact le_mul_of_one_le_left hpower.le (by exact_mod_cast hlow)
  · gcongr
    exact_mod_cast hhigh

/-- In exact arithmetic, a round step has as many decimals as needed. -/
theorem tickPrecision_rat : tickPrecision (c * 10 ^ k : Rat) = (-k).toNat := by
  obtain ⟨hge, hle⟩ := round_step_bounds hc k
  have hpos : (0.0 : Rat) < c * 10 ^ k := by
    rw [Exact.zero]
    exact lt_of_lt_of_le (by positivity) hge
  rw [tickPrecision, Scalar.isFinite_rat, decide_eq_true hpos]
  exact Scalar.decimals_rat hge hle

end

/-! ## The decimals of a step, with logarithms -/

open Double (Rounds)
open Scalar (ratOfFloat)

/-- The decimals needed to write ticks that are `step` apart, with a way to compute logarithms. -/
def tickPrecisionBy (log10 : Float → Float) (step : Float) : Nat :=
  if Scalar.isFinite step && 0.0 < step then (-Double.floorInt (log10 step + 0.01)).toNat else 0

section
variable {x q e : ℝ}

theorem two_le_log_ten : 2 ≤ Real.log 10 := by
  have height : Real.log 8 = 3 * Real.log 2 := by
    rw [← Real.log_rpow two_pos]
    norm_num
  have hle : Real.log 8 ≤ Real.log 10 := Real.log_le_log (by norm_num) (by norm_num)
  have := Real.log_two_gt_d9
  linarith

/-- Numbers that are near to each other have logarithms that are. -/
theorem abs_logb_sub_le (hq : 0 < q) (he : e ≤ 1 / 2) (h : |x - q| ≤ q * e) :
    |Real.logb 10 x - Real.logb 10 q| ≤ e := by
  obtain ⟨t, rfl⟩ : ∃ t, x = q * t := ⟨x / q, by field_simp⟩
  have ht : |t - 1| ≤ e := by
    rw [← mul_sub_one, abs_mul, abs_of_pos hq] at h
    exact le_of_mul_le_mul_left h hq
  obtain ⟨hlow, hhigh⟩ := abs_le.1 ht
  have hpos : 0 < t := by linarith
  have hten := two_le_log_ten
  have hdifference : Real.logb 10 (q * t) - Real.logb 10 q = Real.log t / Real.log 10 := by
    rw [Real.logb_mul hq.ne' hpos.ne', add_sub_cancel_left, Real.logb]
  have hupper := Real.log_le_sub_one_of_pos hpos
  have hlower : -(2 * e) ≤ Real.log t := by
    refine le_trans ?_ (Real.one_sub_inv_le_log_of_pos hpos)
    rw [← sub_nonneg]
    have hscaled : 0 ≤ (1 - t⁻¹ - -(2 * e)) * t := by
      rw [sub_mul, sub_mul, inv_mul_cancel₀ hpos.ne']
      nlinarith
    exact nonneg_of_mul_nonneg_left hscaled hpos
  rw [hdifference, abs_div, abs_of_pos (by linarith : 0 < Real.log 10),
    div_le_iff₀ (by linarith), abs_le]
  constructor <;> nlinarith

/-- The logarithm of a round step. -/
theorem logb_round_step {c : Nat} (hc : c ∈ [1, 2, 5]) (k : Int) :
    k ≤ Real.logb 10 (c * 10 ^ k) ∧ Real.logb 10 (c * 10 ^ k) ≤ k + 7 / 10 := by
  obtain ⟨hlow, hhigh⟩ := round_bounds hc
  have hlow' : (1 : ℝ) ≤ c := by exact_mod_cast hlow
  have hhigh' : (c : ℝ) ≤ 5 := by exact_mod_cast hhigh
  have hpower : (10 : ℝ) ^ k ≠ 0 := by positivity
  have hsum : Real.logb 10 (c * 10 ^ k) = Real.logb 10 c + k := by
    rw [Real.logb_mul (by linarith) hpower, ← Real.rpow_intCast,
      Real.logb_rpow (by norm_num) (by norm_num)]
  have hnonneg : 0 ≤ Real.logb 10 c := Real.logb_nonneg (by norm_num) hlow'
  have hfive : 10 * Real.logb 10 5 ≤ 7 := by
    have hpow : Real.logb 10 (5 ^ 10) ≤ Real.logb 10 (10 ^ 7) :=
      Real.logb_le_logb_of_le (by norm_num) (by norm_num) (by norm_num)
    rw [Real.logb_pow, Real.logb_pow, Real.logb_self_eq_one (by norm_num)] at hpow
    norm_num at hpow
    exact hpow
  have hle : Real.logb 10 c ≤ Real.logb 10 5 :=
    Real.logb_le_logb_of_le (by norm_num) (by linarith) hhigh'
  rw [hsum]
  constructor <;> linarith

end

/-! ## The decimals of a double -/

section
variable {log10 : Float → Float} {step : Float} {c : Nat} {k : Int}

/-- What is added to a logarithm. -/
theorem ratOfFloat_hundredth : ratOfFloat 0.01 ∈ Set.Ioo (1 / 100 : Rat) (1 / 99) := by
  have hhundredth : ratOfFloat 0.01 = Scalar.ofBinary 5764607523034235 (-59) := rfl
  rw [hhundredth, Double.ofBinary_eq]
  constructor <;> norm_num

/-- The decimals of a step whose logarithm is known. -/
theorem tickPrecisionBy_of_log (hstep : step.isFinite = true) (hpos : 0.0 < step)
    (hfinite : (log10 step).isFinite = true) (hk : -2 ^ 50 ≤ k)
    (hlow : k - 1 / 100 - 1 / 2 ^ 53 ≤ ratOfFloat (log10 step))
    (hlow' : 0 ≤ k → -(1 / 100) ≤ ratOfFloat (log10 step))
    (hhigh : ratOfFloat (log10 step) ≤ k + 73 / 100) :
    tickPrecisionBy log10 step = (-k).toNat := by
  obtain ⟨hadd, hadd'⟩ := ratOfFloat_hundredth
  have hrounds : Rounds (ratOfFloat (log10 step) + ratOfFloat 0.01) (log10 step + 0.01) :=
    Double.add_rounds hfinite rfl
  have hsum : (log10 step + 0.01).isFinite = true := by
    refine Double.isFinite_of_rounds_near hfinite hrounds ?_
    rw [sub_add_cancel_left, abs_neg, abs_of_pos (by linarith)]
    linarith
  have hguard : (Scalar.isFinite step && decide (0.0 < step)) = true := by
    rw [decide_eq_true hpos, Bool.and_true]
    exact hstep
  rw [tickPrecisionBy, if_pos hguard, Double.floorInt_eq hsum]
  rcases le_or_gt 0 k with hwhole | hfraction
  · -- above one there are no decimals
    have hnonneg : 0 ≤ ratOfFloat (log10 step + 0.01) :=
      hrounds.ge hsum Double.representable_zero (by linarith [hlow' hwhole])
    have hfloor := Int.floor_nonneg.2 hnonneg
    omega
  · have hge : k ≤ ratOfFloat (log10 step + 0.01) :=
      hrounds.int_le hsum ⟨by omega, hfraction⟩ (by linarith)
    have hlt : ratOfFloat (log10 step + 0.01) ≤ (k + 3 / 4 : Rat) := by
      refine hrounds.le hsum ⟨4 * k + 3, -2, by omega, by decide, ?_⟩ (by linarith)
      push_cast
      rw [zpow_neg]
      norm_num
      ring
    have hfloor : ⌊ratOfFloat (log10 step + 0.01)⌋ = k :=
      Int.floor_eq_iff.2 ⟨hge, by linarith⟩
    rw [hfloor]

/-- The decimals of the double nearest to a round step. -/
theorem tickPrecisionBy_eq (hc : c ∈ [1, 2, 5]) (hk : -28 ≤ k) (hstep : step.isFinite = true)
    (hrounds : Rounds (c * 10 ^ k) step) (hfinite : (log10 step).isFinite = true)
    (hlog : |(ratOfFloat (log10 step) - Real.logb 10 (ratOfFloat step) : ℝ)| ≤ 1 / 100) :
    tickPrecisionBy log10 step = (-k).toNat := by
  obtain ⟨hge, hle⟩ := round_step_bounds hc k
  have hnormal : (2 : Rat) ^ (-1022 : Int) ≤ c * 10 ^ k := by
    refine le_trans ?_ hge
    calc (2 : Rat) ^ (-1022 : Int) ≤ 2 ^ (-112 : Int) := zpow_le_zpow_right₀ one_le_two (by decide)
      _ ≤ 10 ^ (-28 : Int) := by norm_num
      _ ≤ 10 ^ k := zpow_le_zpow_right₀ (by norm_num) hk
  have hpos : (0 : Rat) < c * 10 ^ k := lt_of_lt_of_le (by positivity) hge
  have hnear := hrounds.abs_sub_le hstep hnormal
  have hpos' : 0 < ratOfFloat step := by
    have := (abs_le.1 hnear).1
    have : (c * 10 ^ k : Rat) / 2 ^ 53 < c * 10 ^ k := div_lt_self hpos (by norm_num)
    linarith
  have hlogs : |Real.logb 10 (ratOfFloat step) - Real.logb 10 (c * 10 ^ k)| ≤ 1 / 2 ^ 53 := by
    have hpos := (Rat.cast_lt (K := ℝ)).2 hpos
    have hnear := (Rat.cast_le (K := ℝ)).2 hnear
    push_cast at hpos hnear
    exact abs_logb_sub_le hpos (by norm_num) (by rwa [mul_one_div])
  obtain ⟨hlow, hhigh⟩ := logb_round_step hc k
  obtain ⟨hlog, hlog'⟩ := abs_le.1 hlog
  obtain ⟨hlogs, hlogs'⟩ := abs_le.1 hlogs
  refine tickPrecisionBy_of_log hstep ((Double.lt_iff_rat rfl hstep).2 hpos') hfinite (by omega)
    ((Rat.cast_le (K := ℝ)).1 ?_) (fun hwhole => (Rat.cast_le (K := ℝ)).1 ?_)
    ((Rat.cast_le (K := ℝ)).1 ?_)
  · push_cast
    linarith
  · -- from one on no logarithm is negative
    have hone : (1 : Rat) ≤ ratOfFloat step := by
      refine hrounds.ge hstep (by exact_mod_cast Double.representable_int (k := 1) (by decide)) ?_
      exact (one_le_zpow₀ (by norm_num) hwhole).trans hge
    have hnonneg : 0 ≤ Real.logb 10 (ratOfFloat step) :=
      Real.logb_nonneg (by norm_num) (by exact_mod_cast hone)
    push_cast
    linarith
  · push_cast
    norm_num at hlogs'
    linarith

end

/-! ## Labels -/

/-- A multiple of a round step has no more decimals than the step. -/
theorem exists_int_of_multiple (c : Nat) (i k : Int) :
    ∃ n : Int, (i * (c * 10 ^ k) : Rat) * 10 ^ (-k).toNat = n := by
  obtain ⟨m, rfl | rfl⟩ := k.eq_nat_or_neg
  · exact ⟨i * (c * 10 ^ m : Nat), by simp⟩
  · refine ⟨i * c, ?_⟩
    rw [neg_neg, Int.toNat_natCast, zpow_neg, zpow_natCast]
    push_cast
    field_simp

theorem isDecimal_tickText {v : Float} {c : Nat} {i k : Int}
    (h : FixedDecimal.valueOf? v = some (i * (c * 10 ^ k) : Rat)) :
    IsDecimal (Scalar.tickText v (-k).toNat) (-k).toNat (i * (c * 10 ^ k)) := by
  obtain ⟨d, hd, htext⟩ := FixedDecimal.exists_tickText h (-k).toNat
  obtain ⟨n, hn⟩ := exists_int_of_multiple c i k
  rw [htext, ← hd]
  rw [← hd] at hn
  exact d.isDecimal_text_of_int _ hn

/-- **Tick labels are exact and distinct.** The label of a value that has a decimal number is this
    number, rounded half to even and written with as many decimals as asked; it has a minus sign
    exactly if the rounded number is negative.
    For a step of `1`, `2` or `5` times `10^k`, with `k` from -28 on, the precision is `-k`, and 0
    for whole steps: in exact arithmetic, and also for the double nearest to the step if the
    logarithm is computed with an error of 1/100 at most.  With this precision the label of a
    multiple of the step is the multiple itself, and different multiples have different labels. -/
theorem tick_labels_exact :
    (∀ (v : Float) (x : Rat) (p : Nat), FixedDecimal.valueOf? v = some x →
      ∃ n : Int, IsHalfEven (x * 10 ^ p) n ∧ IsDecimal (Scalar.tickText v p) p (n / 10 ^ p)) ∧
    tickPrecision = tickPrecisionBy Float.log10 ∧
    ∀ c ∈ ([1, 2, 5] : List Nat), ∀ k : Int, -28 ≤ k →
      tickPrecision (c * 10 ^ k : Rat) = (-k).toNat ∧
      (∀ (log10 : Float → Float) (step : Float), step.isFinite = true →
        Rounds (c * 10 ^ k) step → (log10 step).isFinite = true →
        |(ratOfFloat (log10 step) - Real.logb 10 (ratOfFloat step) : ℝ)| ≤ 1 / 100 →
        tickPrecisionBy log10 step = (-k).toNat) ∧
      (∀ (v : Float) (i : Int), FixedDecimal.valueOf? v = some (i * (c * 10 ^ k) : Rat) →
        IsDecimal (Scalar.tickText v (-k).toNat) (-k).toNat (i * (c * 10 ^ k))) ∧
      ∀ (v w : Float) (i j : Int), FixedDecimal.valueOf? v = some (i * (c * 10 ^ k) : Rat) →
        FixedDecimal.valueOf? w = some (j * (c * 10 ^ k) : Rat) → i ≠ j →
        Scalar.tickText v (-k).toNat ≠ Scalar.tickText w (-k).toNat := by
  refine ⟨fun v x p hv => ?_, rfl, fun c hc k hk => ⟨tickPrecision_rat hc k, ?_, ?_, ?_⟩⟩
  · obtain ⟨d, rfl, htext⟩ := FixedDecimal.exists_tickText hv p
    rw [htext]
    exact d.isDecimal_text p
  · exact fun log10 step hstep hrounds hfinite hlog =>
      tickPrecisionBy_eq hc hk hstep hrounds hfinite hlog
  · exact fun v i hv => isDecimal_tickText hv
  · intro v w i j hv hw hne hsame
    have hlabel := isDecimal_tickText hv
    rw [hsame] at hlabel
    have hstep : (c * 10 ^ k : Rat) ≠ 0 := by
      have := round_bounds hc
      have : (c : Rat) ≠ 0 := by exact_mod_cast (by omega : c ≠ 0)
      positivity
    have hequal := mul_right_cancel₀ hstep (hlabel.unique (isDecimal_tickText hw))
    exact hne (by exact_mod_cast hequal)

/-- The noise of binary arithmetic is not written. -/
example : Scalar.tickText (0.1 + 0.2 : Float) 1 = "0.3" := by decide +kernel

/-- The decimal logarithm of one half, up to a hundredth. -/
theorem logb_half : -(31 / 100) ≤ Real.logb 10 (1 / 2) ∧ Real.logb 10 (1 / 2) ≤ -(30 / 100) := by
  have hhalf : Real.logb 10 (1 / 2) = -Real.logb 10 2 := by rw [one_div, Real.logb_inv]
  have hten : Real.logb 10 10 = 1 := Real.logb_self_eq_one (by norm_num)
  have hlow : Real.logb 10 (10 ^ 30) ≤ Real.logb 10 (2 ^ 100) :=
    Real.logb_le_logb_of_le (by norm_num) (by norm_num) (by norm_num)
  have hhigh : Real.logb 10 (2 ^ 100) ≤ Real.logb 10 (10 ^ 31) :=
    Real.logb_le_logb_of_le (by norm_num) (by norm_num) (by norm_num)
  rw [Real.logb_pow, Real.logb_pow, hten] at hlow hhigh
  norm_num at hlow hhigh
  rw [hhalf]
  constructor <;> linarith

/-- Ticks that are one half apart have one decimal. -/
theorem tick_labels_exact_halves :
    tickPrecisionBy (fun _ => -0.3010299956639812) 0.5 = 1 ∧
      IsDecimal (Scalar.tickText (1.5 : Float) 1) 1 (3 * (5 * 10 ^ (-1 : Int))) ∧
      Scalar.tickText (1.5 : Float) 1 ≠ Scalar.tickText (-0.5 : Float) 1 := by
  have hstep : ratOfFloat 0.5 = 1 / 2 := by decide +kernel
  have hrounds : Rounds ((5 : Nat) * 10 ^ (-1 : Int)) 0.5 := by
    have hround : ((5 : Nat) * 10 ^ (-1 : Int) : Rat) = ratOfFloat 0.5 := by
      rw [hstep]
      norm_num
    rw [hround]
    exact Double.rounds_self rfl
  have hlog : |(ratOfFloat (-0.3010299956639812) - Real.logb 10 (ratOfFloat 0.5) : ℝ)| ≤
      1 / 100 := by
    obtain ⟨hlow, hhigh⟩ := logb_half
    have hvalue : ratOfFloat (-0.3010299956639812) =
        -Scalar.ofBinary 5422874305198591 (-54) := rfl
    rw [hvalue, hstep, Double.ofBinary_eq, abs_le]
    push_cast
    rw [zpow_neg]
    norm_num at hlow hhigh ⊢
    constructor <;> linarith
  have hdecimal : FixedDecimal.ofFloat? 1.5 = some ⟨false, 15, 1⟩ := rfl
  have hdecimal' : FixedDecimal.ofFloat? (-0.5) = some ⟨true, 5, 1⟩ := rfl
  obtain ⟨-, -, hlabels⟩ := tick_labels_exact
  obtain ⟨-, hprecision, hexact, hdistinct⟩ := hlabels 5 (by decide) (-1) (by decide)
  refine ⟨hprecision _ 0.5 rfl hrounds rfl hlog, hexact 1.5 3 ?_,
    hdistinct 1.5 (-0.5) 3 (-1) ?_ ?_ (by decide)⟩
  · norm_num [FixedDecimal.valueOf?, hdecimal, FixedDecimal.value]
  · norm_num [FixedDecimal.valueOf?, hdecimal, FixedDecimal.value]
  · norm_num [FixedDecimal.valueOf?, hdecimal', FixedDecimal.value]

end CourseCharts

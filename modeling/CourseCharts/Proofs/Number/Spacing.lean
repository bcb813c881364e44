/-
  CourseCharts — doubles around a number.

  Up to `2^57` there is a double within sixteen of each double, on the side of
  zero; beyond, the doubles are multiples of 32.  So ten more or ten less
  makes a difference exactly up to there.

  * `Representable.exists_below` and `exists_above`: the doubles within sixteen;
  * `Representable.multiple` and `eq_of_near`: beyond, the numbers are multiples
    of their unit;
  * `exists_near` and `Rounds.abs_sub_le`: how near the doubles around a number
    are, and `Rounds.int_le` around a negative integer;
  * `sub_ten_lt` and `lt_add_ten`: up to `2^57` ten is not rounded away;
  * `eq_of_rounds_near`: beyond, it is.
-/
import CourseCharts.Proofs.Number.Arithmetic

namespace CourseCharts.Double

open Scalar (ratOfFloat)

theorem ratOfFloat_zero : ratOfFloat 0.0 = 0 := rfl

theorem ratOfFloat_ten : ratOfFloat 10.0 = 10 := by
  have hten : ratOfFloat 10.0 = Scalar.ofBinary (5 * 2 ^ 50) (-49) := rfl
  rw [hten, ofBinary_eq]
  norm_num

theorem ratOfFloat_hundred : ratOfFloat 100.0 = 100 := by
  have hhundred : ratOfFloat 100.0 = Scalar.ofBinary (25 * 2 ^ 48) (-46) := rfl
  rw [hhundred, ofBinary_eq]
  norm_num

namespace Representable

variable {v : Rat}

/-- A number up to `2^57` is a multiple of a unit that is at most sixteen. -/
theorem exists_unit (h : Representable v) (hv : |v| ≤ 2 ^ 57) :
    ∃ n f : Int, n.natAbs ≤ 2 ^ 53 ∧ -1074 ≤ f ∧ f ≤ 4 ∧ v = n * 2 ^ f := by
  obtain ⟨n, f, hn, hf, rfl⟩ := h
  rcases le_or_gt f 4 with hunit | hunit
  · exact ⟨n, f, hn, hf, hunit, rfl⟩
  · have hshift := two_zpow_eq hunit.le
    refine ⟨n * 2 ^ (f - 4).toNat, 4, ?_, by decide, le_rfl, ?_⟩
    · rw [hshift, ← mul_assoc, abs_mul] at hv
      norm_num at hv
      have hcast : |(n : Rat)| * 2 ^ (f - 4).toNat ≤ 2 ^ 53 := by linarith
      zify
      rw [abs_mul, abs_pow]
      exact_mod_cast hcast
    · rw [hshift]
      push_cast
      ring

theorem unit_le {f : Int} (h : f ≤ 4) : (2 : Rat) ^ f ≤ 16 := by
  calc (2 : Rat) ^ f ≤ 2 ^ (4 : Int) := zpow_le_zpow_right₀ one_le_two h
    _ = 16 := by norm_num

/-- The next number towards zero. -/
theorem exists_below (h : Representable v) (hv : |v| ≤ 2 ^ 57) (hpos : 0 < v) :
    ∃ w, Representable w ∧ v - 16 ≤ w ∧ w < v := by
  obtain ⟨n, f, hn, hf, hunit, rfl⟩ := h.exists_unit hv
  have hunit' := unit_le hunit
  have hf' : (0 : Rat) < 2 ^ f := by positivity
  have hn' : 0 < n := by exact_mod_cast pos_of_mul_pos_left hpos hf'.le
  have hstep : ((n - 1 : Int) : Rat) * 2 ^ f = n * 2 ^ f - 2 ^ f := by
    push_cast
    ring
  exact ⟨_, ⟨n - 1, f, by omega, hf, rfl⟩, by linarith, by linarith⟩

theorem exists_above (h : Representable v) (hv : |v| ≤ 2 ^ 57) (hneg : v ≤ 0) :
    ∃ w, Representable w ∧ v < w ∧ w ≤ v + 16 := by
  obtain ⟨n, f, hn, hf, hunit, rfl⟩ := h.exists_unit hv
  have hunit' := unit_le hunit
  have hf' : (0 : Rat) < 2 ^ f := by positivity
  have hn' : n ≤ 0 := by exact_mod_cast nonpos_of_mul_nonpos_left hneg hf'
  have hstep : ((n + 1 : Int) : Rat) * 2 ^ f = n * 2 ^ f + 2 ^ f := by
    push_cast
    ring
  exact ⟨_, ⟨n + 1, f, by omega, hf, rfl⟩, by linarith, by linarith⟩

/-- From `2^52` units on, all numbers are multiples of the unit. -/
theorem multiple (h : Representable v) {g : Int} (hv : 2 ^ (52 + g) ≤ |v|) :
    ∃ j : Int, v = j * 2 ^ g := by
  obtain ⟨n, f, hn, hf, rfl⟩ := h
  have hn' : |(n : Rat)| ≤ 2 ^ 53 := by
    rw [← Int.cast_abs, Int.abs_eq_natAbs]
    exact_mod_cast hn
  have hunit : (0 : Rat) < 2 ^ g := by positivity
  rw [abs_mul, abs_of_pos (by positivity : (0 : Rat) < 2 ^ f), zpow_add₀ two_ne_zero] at hv
  rcases le_or_gt g f with hle | hlt
  · exact ⟨n * 2 ^ (f - g).toNat, by rw [two_zpow_eq hle]; push_cast; ring⟩
  · -- with a smaller unit no number is as large, except for the largest one with half the unit
    have hhalf : (2 : Rat) ^ f ≤ 2 ^ g / 2 := by
      rw [div_eq_mul_inv, ← zpow_sub_one₀ (two_ne_zero : (2 : Rat) ≠ 0)]
      exact zpow_le_zpow_right₀ one_le_two (by omega)
    have hprod : |(n : Rat)| * 2 ^ f ≤ |(n : Rat)| * (2 ^ g / 2) := by gcongr
    have hfull : |(n : Rat)| = 2 ^ 53 := by
      refine le_antisymm hn' ?_
      have hcancel : 2 ^ 53 * (2 : Rat) ^ g ≤ |(n : Rat)| * 2 ^ g := by
        norm_num at hv ⊢
        linarith
      exact le_of_mul_le_mul_right hcancel hunit
    have hf' : (2 : Rat) ^ f = 2 ^ g / 2 := by
      refine le_antisymm hhalf ?_
      rw [hfull] at hv
      norm_num at hv
      linarith
    rcases eq_or_eq_neg_of_abs_eq hfull with h | h <;> rw [h, hf']
    · exact ⟨2 ^ 52, by push_cast; ring⟩
    · exact ⟨-2 ^ 52, by push_cast; ring⟩

/-- Beyond `2^57`, they are multiples of 32. -/
theorem multiple_of_large (h : Representable v) (hv : 2 ^ 57 ≤ |v|) : ∃ j : Int, v = 32 * j := by
  obtain ⟨j, rfl⟩ := h.multiple (g := 5) (by norm_num at hv ⊢; exact hv)
  exact ⟨j, by norm_num [mul_comm]⟩

/-- Beyond `2^57` there is no other number that is near. -/
theorem eq_of_near {w : Rat} (hv : Representable v) (hw : Representable w) (hlarge : 2 ^ 57 < |v|)
    (h : |w - v| ≤ 20) : w = v := by
  obtain ⟨i, rfl⟩ := hv.multiple_of_large hlarge.le
  have hi : 2 ^ 52 + 1 ≤ |i| := by
    rw [abs_mul, abs_of_pos (by norm_num : (0 : Rat) < 32)] at hlarge
    have hbound : (2 : Rat) ^ 52 < |(i : Rat)| := by linarith
    have : (2 : Int) ^ 52 < |i| := by exact_mod_cast hbound
    omega
  have hw' : 2 ^ 57 ≤ |w| := by
    have htriangle := abs_sub_abs_le_abs_sub (32 * (i : Rat)) w
    rw [abs_sub_comm, abs_mul, abs_of_pos (by norm_num : (0 : Rat) < 32)] at htriangle
    have hi' : (2 : Rat) ^ 52 + 1 ≤ |(i : Rat)| := by exact_mod_cast hi
    linarith
  obtain ⟨j, rfl⟩ := hw.multiple_of_large hw'
  rw [← mul_sub, abs_mul, abs_of_pos (by norm_num : (0 : Rat) < 32)] at h
  have hlt : |(j : Rat) - i| < 1 := by linarith
  have hzero : |j - i| < 1 := by exact_mod_cast hlt
  rw [sub_eq_zero.1 (Int.abs_lt_one_iff.1 hzero)]

/-- The unit of a number with 53 bits. -/
theorem exists_unit_of_pos {q : Rat} (hq : 2 ^ (-1022 : Int) ≤ q) :
    ∃ g : Int, -1074 ≤ g ∧ 2 ^ 52 * 2 ^ g ≤ q ∧ q < 2 ^ 53 * 2 ^ g := by
  have hpos : 0 < q := lt_of_lt_of_le (by positivity) hq
  have hlow : (2 : Rat) ^ Int.log 2 q ≤ q := by
    exact_mod_cast Int.zpow_log_le_self one_lt_two hpos
  have hhigh : q < 2 ^ (Int.log 2 q + 1) := by
    exact_mod_cast Int.lt_zpow_succ_log_self one_lt_two q
  have hscale (n : Nat) (g : Int) : (2 : Rat) ^ n * 2 ^ g = 2 ^ (n + g) := by
    rw [← zpow_natCast, ← zpow_add₀ two_ne_zero]
  refine ⟨Int.log 2 q - 52, ?_, ?_, ?_⟩
  · have hlt : (2 : Rat) ^ (-1022 : Int) < 2 ^ (Int.log 2 q + 1) := hq.trans_lt hhigh
    have := (zpow_lt_zpow_iff_right₀ (one_lt_two : (1 : Rat) < 2)).1 hlt
    omega
  · rwa [hscale, Nat.cast_ofNat, add_sub_cancel]
  · rw [hscale]
    convert hhigh using 2
    push_cast
    ring

/-- Near every number that is not too small there is one with 53 bits. -/
theorem exists_near {q : Rat} (hq : 2 ^ (-1022 : Int) ≤ q) :
    ∃ r, Representable r ∧ |r - q| ≤ q / 2 ^ 53 := by
  obtain ⟨g, hg, hlow, hhigh⟩ := exists_unit_of_pos hq
  have hunit : (0 : Rat) < 2 ^ g := by positivity
  rw [← le_div_iff₀ hunit] at hlow
  rw [← div_lt_iff₀ hunit] at hhigh
  obtain ⟨n, hn⟩ : ∃ n : Int, |n - q / 2 ^ g| ≤ 1 / 2 :=
    ⟨_, (abs_sub_comm _ _).trans_le (abs_sub_round _)⟩
  have hbits : -1 < n ∧ n < 2 ^ 53 + 1 := by
    obtain ⟨hn, hn'⟩ := abs_le.1 hn
    constructor
    · have : (-1 : Rat) < n := by linarith
      exact_mod_cast this
    · have : (n : Rat) < 2 ^ 53 + 1 := by linarith
      exact_mod_cast this
  refine ⟨n * 2 ^ g, ⟨n, g, by omega, hg, rfl⟩, ?_⟩
  have hunits : n * 2 ^ g - q = (n - q / 2 ^ g) * 2 ^ g := by
    rw [sub_mul, div_mul_cancel₀ _ hunit.ne']
  rw [hunits, abs_mul, abs_of_pos hunit, ← le_div_iff₀ hunit, div_right_comm]
  refine hn.trans ?_
  rw [le_div_iff₀ (by positivity)]
  linarith

end Representable

theorem representable_int {k : Int} (hk : k.natAbs ≤ 2 ^ 53) : Representable k :=
  ⟨k, 0, hk, by decide, by simp⟩

theorem rounds_self {x : Float} (hx : x.isFinite = true) : Rounds (ratOfFloat x) x :=
  ⟨_, .of_eq (proper_unpack hx) (value_unpack x),
    congrArg Float.toModel (ofModel_pack_unpack x).symm⟩

namespace Rounds

variable {q : Rat} {x : Float} (h : Rounds q x)

include h

/-- A number has a relative error of `2^-53` at most. -/
theorem abs_sub_le (hx : x.isFinite = true) (hq : 2 ^ (-1022 : Int) ≤ q) :
    |ratOfFloat x - q| ≤ q / 2 ^ 53 := by
  obtain ⟨r, hr, hnear⟩ := Representable.exists_near hq
  rw [← value_unpack]
  exact ((h.nearest hx).least r hr).trans hnear

/-- What is less than half a unit below a negative integer is not rounded down. -/
theorem int_le (hx : x.isFinite = true) {k : Int} (hk : -2 ^ 53 ≤ k ∧ k < 0)
    (hq : k - 1 / 2 ^ 53 < q) : k ≤ ratOfFloat x := by
  have hint : Representable k := representable_int (by omega)
  rcases le_or_gt (k : Rat) q with hle | hlt
  · exact h.ge hx hint hle
  · by_contra hbelow
    rw [not_le] at hbelow
    have hk' : (k : Rat) ≤ -1 := by exact_mod_cast Int.le_sub_one_of_lt hk.2
    -- the next double below is one unit away
    obtain ⟨j, hj⟩ := (representable_ratOfFloat hx).multiple (g := -52) (by
      rw [add_neg_cancel, zpow_zero, abs_of_neg (by linarith)]
      linarith)
    have hunit : (2 : Rat) ^ (-52 : Int) = 1 / 2 ^ 52 := by rw [zpow_neg, one_div]; rfl
    rw [hunit, mul_one_div] at hj
    have hnext : j ≤ k * 2 ^ 52 - 1 := by
      rw [hj, div_lt_iff₀ (by positivity)] at hbelow
      have : j < k * 2 ^ 52 := by exact_mod_cast hbelow
      omega
    have hnext' : (j : Rat) / 2 ^ 52 ≤ k - 1 / 2 ^ 52 := by
      rw [div_le_iff₀ (by positivity), sub_mul, one_div_mul_cancel (by positivity)]
      exact_mod_cast hnext
    rw [← hj] at hnext'
    norm_num at hq hnext'
    have hleast := (h.nearest hx).least k hint
    rw [value_unpack, abs_of_neg (by linarith), abs_of_pos (by linarith)] at hleast
    linarith

end Rounds

/-! ## Ten more and ten less -/

section
variable {x : Float} (hx : x.isFinite = true)

include hx

/-- Ten more or less does not overflow. -/
theorem isFinite_of_rounds_near {y : Float} {q : Rat} (h : Rounds q y)
    (hq : |ratOfFloat x - q| ≤ 10) : y.isFinite = true := by
  refine h.isFinite (representable_ratOfFloat hx) ?_
  have hbound := abs_ratOfFloat_le hx
  have hroom : (20 : Rat) < 2 ^ 971 := lt_of_lt_of_le (b := 2 ^ 5) (by norm_num)
    (pow_le_pow_right₀ one_le_two (by decide))
  have htriangle := abs_sub_abs_le_abs_sub q (ratOfFloat x)
  rw [abs_sub_comm] at htriangle
  generalize (2 : Rat) ^ 971 = room at hbound hroom
  generalize (2 : Rat) ^ 1024 = limit at hbound ⊢
  linarith

theorem sub_ten_rounds : Rounds (ratOfFloat x - 10) (x - 10.0) := by
  have h := sub_rounds hx (y := 10.0) rfl
  rwa [ratOfFloat_ten] at h

theorem add_ten_rounds : Rounds (ratOfFloat x + 10) (x + 10.0) := by
  have h := add_rounds hx (y := 10.0) rfl
  rwa [ratOfFloat_ten] at h

theorem isFinite_sub_ten : (x - 10.0).isFinite = true :=
  isFinite_of_rounds_near hx (sub_ten_rounds hx) (by norm_num)

theorem isFinite_add_ten : (x + 10.0).isFinite = true :=
  isFinite_of_rounds_near hx (add_ten_rounds hx) (by norm_num)

/-- Up to `2^57` ten less than a positive number is less. -/
theorem sub_ten_lt (hsmall : |ratOfFloat x| ≤ 2 ^ 57) (hpos : 0 < ratOfFloat x) :
    ratOfFloat (x - 10.0) < ratOfFloat x := by
  obtain ⟨w, hw, hge, hlt⟩ := (representable_ratOfFloat hx).exists_below hsmall hpos
  have hleast := ((sub_ten_rounds hx).nearest (isFinite_sub_ten hx)).least w hw
  rw [value_unpack] at hleast
  by_contra hnot
  rw [not_lt] at hnot
  rw [abs_of_nonneg (by linarith)] at hleast
  have hnear : |w - (ratOfFloat x - 10)| < 10 := abs_lt.2 ⟨by linarith, by linarith⟩
  linarith

theorem lt_add_ten (hsmall : |ratOfFloat x| ≤ 2 ^ 57) (hneg : ratOfFloat x ≤ 0) :
    ratOfFloat x < ratOfFloat (x + 10.0) := by
  obtain ⟨w, hw, hlt, hle⟩ := (representable_ratOfFloat hx).exists_above hsmall hneg
  have hleast := ((add_ten_rounds hx).nearest (isFinite_add_ten hx)).least w hw
  rw [value_unpack] at hleast
  by_contra hnot
  rw [not_lt] at hnot
  rw [abs_of_nonpos (by linarith)] at hleast
  have hnear : |w - (ratOfFloat x + 10)| < 10 := abs_lt.2 ⟨by linarith, by linarith⟩
  linarith

/-- Beyond `2^57` it is rounded away. -/
theorem eq_of_rounds_near {y : Float} {q : Rat} (h : Rounds q y)
    (hq : |ratOfFloat x - q| ≤ 10) (hlarge : 2 ^ 57 < |ratOfFloat x|) :
    ratOfFloat y = ratOfFloat x := by
  have hy := isFinite_of_rounds_near hx h hq
  refine (representable_ratOfFloat hx).eq_of_near (representable_ratOfFloat hy) hlarge ?_
  have hleast := (h.nearest hy).least _ (representable_ratOfFloat hx)
  rw [value_unpack] at hleast
  have htriangle := abs_sub_le (ratOfFloat y) q (ratOfFloat x)
  rw [abs_sub_comm q] at htriangle
  linarith

end

end CourseCharts.Double

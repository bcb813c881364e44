/-
  CourseCharts — ticks in exact arithmetic.

  * `exists_tickStep?`: there is a step, which is round and near the even
    spacing;
  * `ticks_eq`: the ticks are `multiples` of the step;
  * `mem_multiples_between` and `length_multiples_between`: they are those between
    the ends, and about as many as the step fits in;
  * `ticks_are_round_multiples`: all of this together.
-/
import CourseCharts.Proofs.Number.Exact
import CourseCharts.Proofs.Number.PowerOfTen
import CourseCharts.Scale.Ticks
import Mathlib.Algebra.Order.Floor.Ring
import Mathlib.Tactic.FieldSimp
import Mathlib.Tactic.Ring

namespace CourseCharts

variable {a b step : Rat} {count : Nat}

/-! ## Ends -/

theorem inOrder_rat (a b : Rat) : inOrder a b = (min a b, max a b) := by
  unfold inOrder
  split
  next h => rw [min_eq_left h, max_eq_right h]
  next h => rw [min_eq_right (not_le.1 h).le, max_eq_left (not_le.1 h).le]

theorem inOrder_comm (a b : Rat) : inOrder a b = inOrder b a := by
  rw [inOrder_rat, inOrder_rat, min_comm, max_comm]

theorem tickStep?_comm (a b : Rat) (count : Nat) : tickStep? a b count = tickStep? b a count := by
  rw [tickStep?, tickStep?, inOrder_comm]

/-- It does not matter which end comes first. -/
theorem ticks_comm (a b : Rat) (count : Nat) : ticks a b count = ticks b a count := by
  rw [ticks, ticks, tickStep?_comm, inOrder_comm]

/-! ## Steps -/

/-- `1`, `2` or `5` times a power of ten. -/
def IsRound (step : Rat) : Prop := ∃ c ∈ [1, 2, 5], ∃ k : Int, step = c * 10 ^ k

/-- What a power of ten is multiplied with that is `error` of the even spacing. -/
def raised (error : Rat) : Rat :=
  if error ≤ 3 / 20 then 10 else if error ≤ 7 / 20 then 5 else if error ≤ 3 / 4 then 2 else 1

theorem IsRound.raised (k : Int) (error : Rat) : IsRound (10 ^ k * raised error) := by
  unfold CourseCharts.raised
  split_ifs
  · exact ⟨1, by simp, k + 1, by rw [zpow_add_one₀ (by norm_num), one_mul]⟩
  · exact ⟨5, by simp, k, mul_comm _ _⟩
  · exact ⟨2, by simp, k, mul_comm _ _⟩
  · exact ⟨1, by simp, k, mul_comm _ _⟩

theorem IsRound.pos (h : IsRound step) : 0 < step := by
  obtain ⟨c, hc, k, rfl⟩ := h
  have hpower : (0 : Rat) < 10 ^ k := zpow_pos (by norm_num) k
  have hc : c = 1 ∨ c = 2 ∨ c = 5 := by simpa using hc
  rcases hc with rfl | rfl | rfl <;> linarith

/-- A power of ten that is more than a tenth of the even spacing is raised to about all of it. -/
theorem raised_mul_mem {error : Rat} (hlow : 1 / 10 < error) (hhigh : error ≤ 1) :
    raised error * error ∈ Set.Ioc (7 / 10 : Rat) (7 / 4) := by
  unfold raised
  split_ifs <;> constructor <;> linarith

/-- The distance between the ends, shared evenly. -/
def evenSpacing (a b : Rat) (count : Nat) : Rat := |b - a| / count

theorem evenSpacing_pos (hab : a ≠ b) (hcount : 0 < count) : 0 < evenSpacing a b count :=
  div_pos (abs_pos.2 (sub_ne_zero.2 hab.symm)) (Nat.cast_pos.2 hcount)

theorem tickStep?_rat (hab : a ≠ b) (hcount : 0 < count) :
    tickStep? a b count =
      let p := Scalar.powerOfTen (evenSpacing a b count)
      some (p * raised (p / evenSpacing a b count)) := by
  have hpos : 0 < |b - a| := abs_pos.2 (sub_ne_zero.2 hab.symm)
  have hspan : max a b - min a b = |b - a| := max_sub_min_eq_abs a b
  have hguard :
      (Scalar.isFinite |b - a| && decide ((0.0 : Rat) < |b - a|) && count != 0) = true := by
    rw [Exact.zero]
    simpa [-abs_pos] using ⟨hpos, hcount.ne'⟩
  have herror (p : Rat) : (count : Rat) / |b - a| * p = p / evenSpacing a b count := by
    rw [evenSpacing]
    field_simp
  simp only [tickStep?, inOrder_rat, hspan, hguard, if_true, Scalar.ofNat_rat, herror]
  rw [← evenSpacing]
  simp only [raised, mul_ite, mul_one]
  norm_num

/-- There is a step, which is round and near the even spacing. -/
theorem exists_tickStep? (hab : a ≠ b) (hcount : 0 < count) :
    ∃ step, tickStep? a b count = some step ∧ IsRound step ∧
      step / evenSpacing a b count ∈ Set.Ioc (7 / 10 : Rat) (7 / 4) := by
  have hpos := evenSpacing_pos hab hcount
  obtain ⟨k, hpower, hle, hlt⟩ := Scalar.powerOfTen_rat hpos
  rw [zpow_add_one₀ (by norm_num)] at hlt
  have hlow : 1 / 10 < 10 ^ k / evenSpacing a b count := by
    rw [lt_div_iff₀ hpos]
    linarith
  have hhigh : 10 ^ k / evenSpacing a b count ≤ 1 := (div_le_one hpos).2 hle
  have hstep := tickStep?_rat hab hcount
  rw [hpower] at hstep
  refine ⟨_, hstep, IsRound.raised k _, ?_⟩
  rw [mul_comm, mul_div_assoc]
  exact raised_mul_mem hlow hhigh

/-! ## Ticks -/

/-- The multiples of a step from the `first` to the `last`. -/
def multiples (step : Rat) (first last : Int) : List Rat :=
  (List.range (last + 1 - first).toNat).map fun i : Nat => ((first + i : Int) : Rat) * step

/-- An index of 64 bits. -/
def FitsIndex (i : Int) : Prop := -2 ^ 63 ≤ i ∧ i < 2 ^ 63

theorem clampIndex_eq {i : Int} (hi : FitsIndex i) : clampIndex i = i := by
  have hmin : Int64.minValue.toInt = -2 ^ 63 := rfl
  have hmax : Int64.maxValue.toInt = 2 ^ 63 - 1 := rfl
  obtain ⟨hlow, hhigh⟩ := hi
  unfold clampIndex
  omega

theorem ticks_eq (hstep : tickStep? a b count = some step)
    (hfirst : FitsIndex ⌈min a b / step⌉) (hlast : FitsIndex ⌊max a b / step⌋) :
    ticks a b count = multiples step ⌈min a b / step⌉ ⌊max a b / step⌋ := by
  have hceil (x : Rat) : Scalar.ceil x = ⌈x⌉ := rfl
  have hfloor (x : Rat) : Scalar.floor x = ⌊x⌋ := rfl
  simp only [ticks, hstep, inOrder_rat, hceil, hfloor, clampIndex_eq hfirst, clampIndex_eq hlast]
  rfl

theorem mem_multiples {first last : Int} {x : Rat} :
    x ∈ multiples step first last ↔ ∃ i : Int, first ≤ i ∧ i ≤ last ∧ x = i * step := by
  simp only [multiples, List.mem_map, List.mem_range]
  constructor
  · rintro ⟨i, hi, rfl⟩
    exact ⟨first + i, by omega, by omega, rfl⟩
  · rintro ⟨i, hfirst, hlast, rfl⟩
    refine ⟨(i - first).toNat, by omega, ?_⟩
    rw [Int.toNat_of_nonneg (by omega), add_sub_cancel]

theorem multiples_ascending (hstep : 0 < step) (first last : Int) :
    (multiples step first last).Pairwise (· < ·) := by
  refine List.pairwise_map.2 (List.pairwise_lt_range.imp fun {i j} hij => ?_)
  have hindex : (first + i : Int) < first + j := by omega
  exact mul_lt_mul_of_pos_right (Int.cast_lt.2 hindex) hstep

theorem length_multiples (first last : Int) :
    (multiples step first last).length = (last + 1 - first).toNat := by
  rw [multiples, List.length_map, List.length_range]

section
variable {low high : Rat} (hstep : 0 < step)

include hstep

/-- Rounding the ends inwards leaves out no multiple between them. -/
theorem mem_multiples_between {x : Rat} :
    x ∈ multiples step ⌈low / step⌉ ⌊high / step⌋ ↔
      (∃ i : Int, x = i * step) ∧ x ∈ Set.Icc low high := by
  have hlow (i : Int) : ⌈low / step⌉ ≤ i ↔ low ≤ i * step := by rw [Int.ceil_le, div_le_iff₀ hstep]
  have hhigh (i : Int) : i ≤ ⌊high / step⌋ ↔ i * step ≤ high := by
    rw [Int.le_floor, le_div_iff₀ hstep]
  simp only [mem_multiples, hlow, hhigh, Set.mem_Icc]
  constructor
  · rintro ⟨i, hi, hi', rfl⟩
    exact ⟨⟨i, rfl⟩, hi, hi'⟩
  · rintro ⟨⟨i, rfl⟩, hi, hi'⟩
    exact ⟨i, hi, hi', rfl⟩

/-- There are as many multiples between the ends as the step fits in, or one more. -/
theorem length_multiples_between (h : low ≤ high) :
    (multiples step ⌈low / step⌉ ⌊high / step⌋).length ∈
      Set.Icc ⌊(high - low) / step⌋₊ (⌊(high - low) / step⌋₊ + 1) := by
  have hwhole : (⌊(high - low) / step⌋₊ : Int) = ⌊(high - low) / step⌋ :=
    Int.natCast_floor_eq_floor (div_nonneg (sub_nonneg.2 h) hstep.le)
  have hsub : (high - low) / step = high / step - low / step := sub_div _ _ _
  have hle : ⌊(high - low) / step⌋ < ⌊high / step⌋ + 1 - ⌈low / step⌉ + 1 := by
    refine Int.floor_lt.2 ?_
    have := Int.ceil_lt_add_one (low / step)
    have := Int.lt_floor_add_one (high / step)
    push_cast
    linarith
  have hge : ⌊high / step⌋ - ⌈low / step⌉ ≤ ⌊(high - low) / step⌋ := by
    refine Int.le_floor.2 ?_
    have := Int.le_ceil (low / step)
    have := Int.floor_le (high / step)
    push_cast
    linarith
  rw [length_multiples, Set.mem_Icc]
  omega

end

/-- A step near the even spacing fits in about as often as asked. -/
theorem floor_div_step_mem (hab : a ≠ b) (hcount : 0 < count) (hstep : 0 < step)
    (hnear : step / evenSpacing a b count ∈ Set.Ioc (7 / 10 : Rat) (7 / 4)) :
    ⌊(4 * count / 7 : Rat)⌋₊ ≤ ⌊|b - a| / step⌋₊ ∧
      ⌊|b - a| / step⌋₊ < ⌈(10 * count / 7 : Rat)⌉₊ := by
  have hspacing := evenSpacing_pos hab hcount
  have hcount' : (0 : Rat) < count := Nat.cast_pos.2 hcount
  obtain ⟨hlow, hhigh⟩ := hnear
  have hspan : |b - a| = count * evenSpacing a b count := by
    rw [evenSpacing, mul_div_cancel₀ _ hcount'.ne']
  rw [lt_div_iff₀ hspacing] at hlow
  rw [div_le_iff₀ hspacing] at hhigh
  constructor
  · refine Nat.floor_le_floor ?_
    rw [le_div_iff₀ hstep, hspan]
    linarith [mul_le_mul_of_nonneg_left hhigh hcount'.le]
  · refine Nat.lt_ceil.2 ((Nat.floor_le (by positivity)).trans_lt ?_)
    rw [div_lt_iff₀ hstep, hspan]
    linarith [mul_lt_mul_of_pos_left hlow hcount']

/-- **Ticks are round multiples.** Between two ends `a` and `b` there is a tick step for any count
    from one on.  It is `1`, `2` or `5` times a power of ten, and more than 7/10 and at most 7/4 of
    the even spacing.
    As long as the indices of the first and the last tick fit into 64 bits, the ticks are exactly
    the multiples of the step between the ends, the ends included, in ascending order; there are at
    least `4/7` and at most `10/7` of the count, rounded outwards.
    It does not matter which end comes first. -/
theorem ticks_are_round_multiples (hab : a ≠ b) (hcount : 1 ≤ count) :
    ∃ step, tickStep? a b count = some step ∧
      (∃ c ∈ [1, 2, 5], ∃ k : Int, step = c * 10 ^ k) ∧
      7 / 10 < step * count / |b - a| ∧ step * count / |b - a| ≤ 7 / 4 ∧
      tickStep? b a count = some step ∧ ticks b a count = ticks a b count ∧
      (FitsIndex ⌈min a b / step⌉ → FitsIndex ⌊max a b / step⌋ →
        (ticks a b count).Pairwise (· < ·) ∧
        (∀ x, x ∈ ticks a b count ↔ (∃ i : Int, x = i * step) ∧ min a b ≤ x ∧ x ≤ max a b) ∧
        ⌊(4 * count / 7 : Rat)⌋₊ ≤ (ticks a b count).length ∧
        (ticks a b count).length ≤ ⌈(10 * count / 7 : Rat)⌉₊) := by
  obtain ⟨step, hsome, hround, hnear⟩ := exists_tickStep? hab hcount
  have hpos := hround.pos
  have hratio : step / evenSpacing a b count = step * count / |b - a| := by
    rw [evenSpacing, div_div_eq_mul_div]
  refine ⟨step, hsome, hround, hratio ▸ hnear.1, hratio ▸ hnear.2, tickStep?_comm a b count ▸ hsome,
    ticks_comm b a count, fun hfirst hlast => ?_⟩
  rw [ticks_eq hsome hfirst hlast]
  obtain ⟨hmin, hmax⟩ := length_multiples_between hpos (min_le_max (a := a) (b := b))
  obtain ⟨hlow, hhigh⟩ := floor_div_step_mem hab hcount hpos hnear
  rw [max_sub_min_eq_abs] at hmin hmax
  exact ⟨multiples_ascending hpos _ _, fun x => mem_multiples_between hpos,
    hlow.trans hmin, hmax.trans hhigh⟩

/-- From 7/10 down to -3/10 the ticks are a fifth apart. -/
theorem ticks_are_round_multiples_downwards :
    (7 / 10 : Rat) ≠ -3 / 10 ∧ 1 ≤ 7 ∧ tickStep? (7 / 10 : Rat) (-3 / 10) 7 = some (1 / 5) ∧
      ticks (7 / 10 : Rat) (-3 / 10) 7 = [-1 / 5, 0, 1 / 5, 2 / 5, 3 / 5] ∧
      ∀ x, x ∈ ticks (7 / 10 : Rat) (-3 / 10) 7 ↔
        (∃ i : Int, x = i * (1 / 5)) ∧ -3 / 10 ≤ x ∧ x ≤ 7 / 10 := by
  have hne : (7 / 10 : Rat) ≠ -3 / 10 := by norm_num
  have hfifth : tickStep? (7 / 10 : Rat) (-3 / 10) 7 = some (1 / 5) := by decide +kernel
  obtain ⟨step, hstep, -, -, -, -, -, hticks⟩ := ticks_are_round_multiples hne (by decide : 1 ≤ 7)
  obtain rfl : 1 / 5 = step := Option.some.inj (hfifth.symm.trans hstep)
  have hmin : min (7 / 10 : Rat) (-3 / 10) = -3 / 10 := by norm_num
  have hmax : max (7 / 10 : Rat) (-3 / 10) = 7 / 10 := by norm_num
  rw [hmin, hmax] at hticks
  obtain ⟨-, hmem, -⟩ := hticks (by norm_num [FitsIndex]) (by norm_num [FitsIndex])
  exact ⟨hne, by decide, hfifth, by decide +kernel, hmem⟩

end CourseCharts

/-
  CourseCharts — extents of doubles.

  Rounding can take away the padding of an extent, and the padded ends can
  overflow.

  * `Extent.raw?_finite`: finite values have the extent of the numbers they are;
  * `Extent.padded_min_le_min` and `max_le_padded_max`: padding cuts no values off;
  * `Extent.Fits`: the values whose padded extent is a domain, and
    `Extent.fit?_finite`: no others have a scale;
  * `Extent.fits_iff_of_ordinary`: below the extremes these are all but equal
    values beyond `2^57`.
-/
import CourseCharts.Proofs.Number.Lawful
import CourseCharts.Proofs.Number.Spacing
import CourseCharts.Proofs.Number.TotalOrder
import CourseCharts.Proofs.Scale.Extent
import CourseCharts.Proofs.Scale.Linear

namespace CourseCharts

open Scalar (ratOfFloat)

/-! ## Comparisons -/

namespace Double

variable {x y : Float}

theorem totalLE_rat (hx : x.isFinite = true) (hy : y.isFinite = true) :
    Scalar.totalLE x y = decide (ratOfFloat x ≤ ratOfFloat y) := by
  rw [Scalar.totalLE, isNaN_of_isFinite hy, Bool.false_or, decide_eq_decide, le_iff_rat hx hy]

theorem ratOfFloat_larger (hx : x.isFinite = true) (hy : y.isFinite = true) :
    ratOfFloat (Scalar.larger x y) = max (ratOfFloat x) (ratOfFloat y) := by
  rw [Scalar.larger, isNaN_of_isFinite hx, isNaN_of_isFinite hy, if_neg Bool.false_ne_true,
    if_neg Bool.false_ne_true]
  split
  next h => exact (max_eq_left ((lt_iff_rat hy hx).1 h).le).symm
  next h => exact (max_eq_right (not_lt.1 fun hlt => h ((lt_iff_rat hy hx).2 hlt))).symm

theorem ratOfFloat_smaller (hx : x.isFinite = true) (hy : y.isFinite = true) :
    ratOfFloat (Scalar.smaller x y) = min (ratOfFloat x) (ratOfFloat y) := by
  rw [Scalar.smaller, isNaN_of_isFinite hx, isNaN_of_isFinite hy, if_neg Bool.false_ne_true,
    if_neg Bool.false_ne_true]
  split
  next h => exact (min_eq_left ((lt_iff_rat hx hy).1 h).le).symm
  next h => exact (min_eq_right (not_lt.1 fun hlt => h ((lt_iff_rat hx hy).2 hlt))).symm

theorem larger_cases (x y : Float) : Scalar.larger x y = x ∨ Scalar.larger x y = y := by
  unfold Scalar.larger
  split_ifs <;> simp

theorem smaller_cases (x y : Float) : Scalar.smaller x y = x ∨ Scalar.smaller x y = y := by
  unfold Scalar.smaller
  split_ifs <;> simp

end Double

namespace Extent

variable {e : Extent Float} {xs : List Float}

/-! ## The extent of finite values -/

/-- The ends are finite. -/
def Finite (e : Extent Float) : Prop := e.min.isFinite = true ∧ e.max.isFinite = true

/-- The extent as numbers. -/
def exact (e : Extent Float) : Extent Rat := ⟨ratOfFloat e.min, ratOfFloat e.max⟩

theorem Finite.widen (he : e.Finite) {x : Float} (hx : x.isFinite = true) :
    (e.widen x).Finite ∧ (e.widen x).exact = e.exact.widen (ratOfFloat x) := by
  simp only [Finite, exact, Extent.widen, Double.totalLE_rat he.1 hx, Double.totalLE_rat he.2 hx,
    Scalar.totalLE_rat]
  split_ifs <;> simp [hx, he.1, he.2]

theorem Finite.foldl (he : e.Finite) (hxs : ∀ x ∈ xs, x.isFinite = true) :
    (xs.foldl Extent.widen e).Finite ∧
      (xs.foldl Extent.widen e).exact = (xs.map ratOfFloat).foldl Extent.widen e.exact := by
  induction xs generalizing e with
  | nil => exact ⟨he, rfl⟩
  | cons x xs ih =>
    rw [List.forall_mem_cons] at hxs
    obtain ⟨hfinite, hexact⟩ := he.widen hxs.1
    rw [List.map_cons, List.foldl_cons, List.foldl_cons, ← hexact]
    exact ih hfinite hxs.2

/-- Finite values have the extent of the numbers they are. -/
theorem raw?_finite (hne : xs ≠ []) (hxs : ∀ x ∈ xs, x.isFinite = true) :
    ∃ e, raw? xs = .ok e ∧ e.Finite ∧ e.exact.Spans (xs.map ratOfFloat) := by
  cases xs with
  | nil => exact absurd rfl hne
  | cons x xs =>
    rw [List.forall_mem_cons] at hxs
    have hfirst : (⟨x, x⟩ : Extent Float).Finite := ⟨hxs.1, hxs.1⟩
    obtain ⟨hfinite, hexact⟩ := hfirst.foldl hxs.2
    have hspans : (exact ⟨x, x⟩).Spans [ratOfFloat x] := ⟨by simp [exact], by simp [exact],
      by simp [exact]⟩
    refine ⟨xs.foldl Extent.widen ⟨x, x⟩, ?_, hfinite, ?_⟩
    · have hends : Scalar.isFinite (xs.foldl Extent.widen ⟨x, x⟩).min = true ∧
          Scalar.isFinite (xs.foldl Extent.widen ⟨x, x⟩).max = true := hfinite
      simp only [raw?, bind_eq_ok, pure_eq_ok, Quantity.require_eq_ok]
      exact ⟨(), by simpa using hends, trivial⟩
    · rw [hexact]
      exact hspans.foldl _

/-! ## Padding -/

/-- What an extent is widened by on either side. -/
def margin (e : Extent Float) : Float := if e.min == e.max then 10.0 else 0.05 * e.span

theorem padded_eq (e : Extent Float) : e.padded =
    { min := if 0.0 ≤ e.min then Scalar.larger (e.min - e.margin) 0.0 else e.min - e.margin
      max := if e.max ≤ 100.0 then Scalar.smaller (e.max + e.margin) 100.0
        else e.max + e.margin } := rfl

/-- The ends are finite if they are before they are held at zero and at a hundred. -/
theorem padded_finite (hlow : (e.min - e.margin).isFinite = true)
    (hhigh : (e.max + e.margin).isFinite = true) : e.padded.Finite := by
  rw [padded_eq]
  constructor <;> dsimp only <;> split
  · rcases Double.larger_cases (e.min - e.margin) 0.0 with h | h <;> rw [h]
    · exact hlow
    · rfl
  · exact hlow
  · rcases Double.smaller_cases (e.max + e.margin) 100.0 with h | h <;> rw [h]
    · exact hhigh
    · rfl
  · exact hhigh

/-- A twentieth, rounded. -/
theorem ratOfFloat_ratio : 0 ≤ ratOfFloat 0.05 ∧ ratOfFloat 0.05 ≤ 1 / 2 := by
  have hfinite : (0.05 : Float).isFinite = true := by decide
  have hhalf : ratOfFloat 0.5 = 1 / 2 := by
    have hbinary : ratOfFloat 0.5 = Scalar.ofBinary (2 ^ 52) (-53) := rfl
    rw [hbinary, Double.ofBinary_eq]
    norm_num
  refine ⟨(Double.le_iff_rat (x := 0.0) rfl hfinite).1 (by decide), ?_⟩
  rw [← hhalf]
  exact (Double.le_iff_rat hfinite (y := 0.5) rfl).1 (by decide)

section
variable (he : e.Finite) (hle : e.exact.min ≤ e.exact.max)

include he hle

theorem margin_nonneg (h : e.margin.isFinite = true) : 0 ≤ ratOfFloat e.margin := by
  unfold margin at h ⊢
  split
  next => rw [Double.ratOfFloat_ten]; norm_num
  next hne =>
    rw [if_neg hne] at h
    have hspan : e.span.isFinite = true := Double.isFinite_of_mul h
    have hspan_nonneg : 0 ≤ ratOfFloat e.span :=
      (Double.sub_rounds he.2 he.1).ge hspan Double.representable_zero (sub_nonneg.2 hle)
    exact (Double.mul_rounds (by decide) hspan).ge h Double.representable_zero
      (mul_nonneg ratOfFloat_ratio.1 hspan_nonneg)

theorem lower_le (h : (e.min - e.margin).isFinite = true) :
    ratOfFloat (e.min - e.margin) ≤ ratOfFloat e.min := by
  have hmargin := Double.isFinite_of_sub he.1 h
  have hnonneg := margin_nonneg he hle hmargin
  exact (Double.sub_rounds he.1 hmargin).le h (Double.representable_ratOfFloat he.1) (by linarith)

theorem le_upper (h : (e.max + e.margin).isFinite = true) :
    ratOfFloat e.max ≤ ratOfFloat (e.max + e.margin) := by
  have hmargin : e.margin.isFinite = true := by
    by_contra hnot
    rw [Double.not_isFinite_add (Bool.not_eq_true _ ▸ hnot)] at h
    cases h
  have hnonneg := margin_nonneg he hle hmargin
  exact (Double.add_rounds he.2 hmargin).ge h (Double.representable_ratOfFloat he.2) (by linarith)

/-- Padding does not cut off the least value, -/
theorem padded_min_le_min (h : e.padded.min.isFinite = true) :
    ratOfFloat e.padded.min ≤ ratOfFloat e.min := by
  rw [padded_eq] at h ⊢
  dsimp only at h ⊢
  split_ifs at h ⊢ with hmin
  · rcases Double.larger_cases (e.min - e.margin) 0.0 with hcase | hcase <;> rw [hcase] at h ⊢
    · exact lower_le he hle h
    · exact (Double.le_iff_rat rfl he.1).1 hmin
  · exact lower_le he hle h

/-- nor the greatest. -/
theorem max_le_padded_max (h : e.padded.max.isFinite = true) :
    ratOfFloat e.max ≤ ratOfFloat e.padded.max := by
  rw [padded_eq] at h ⊢
  dsimp only at h ⊢
  split_ifs at h ⊢ with hmax
  · rcases Double.smaller_cases (e.max + e.margin) 100.0 with hcase | hcase <;> rw [hcase] at h ⊢
    · exact le_upper he hle h
    · exact (Double.le_iff_rat he.2 rfl).1 hmax
  · exact le_upper he hle h

end

/-! ## Values that are all equal -/

section
variable (he : e.Finite) (heq : (e.min == e.max) = true)

include he heq

theorem exact_min_eq_max : ratOfFloat e.min = ratOfFloat e.max :=
  (Double.beq_iff_rat he.1 he.2).1 heq

/-- The padded ends are ten less and ten more, as far as doubles go. -/
theorem padded_exact : e.padded.Finite ∧ e.padded.exact =
    { min := if 0 ≤ ratOfFloat e.min then Max.max (ratOfFloat (e.min - 10.0)) 0
        else ratOfFloat (e.min - 10.0)
      max := if ratOfFloat e.max ≤ 100 then Min.min (ratOfFloat (e.max + 10.0)) 100
        else ratOfFloat (e.max + 10.0) } := by
  have hlow := Double.isFinite_sub_ten he.1
  have hhigh := Double.isFinite_add_ten he.2
  have hmargin : e.margin = 10.0 := if_pos heq
  have hzero : (0.0 : Float).isFinite = true := rfl
  have hhundred : (100.0 : Float).isFinite = true := rfl
  have hmin : (0.0 : Float) ≤ e.min ↔ 0 ≤ ratOfFloat e.min := Double.le_iff_rat hzero he.1
  have hmax : e.max ≤ 100.0 ↔ ratOfFloat e.max ≤ 100 := by
    rw [Double.le_iff_rat he.2 hhundred, Double.ratOfFloat_hundred]
  refine ⟨padded_finite (by rwa [hmargin]) (by rwa [hmargin]), ?_⟩
  rw [padded_eq, hmargin]
  simp only [exact, hmin, hmax, apply_ite ratOfFloat, Double.ratOfFloat_larger hlow hzero,
      Double.ratOfFloat_smaller hhigh hhundred, Double.ratOfFloat_zero,
      Double.ratOfFloat_hundred]

/-- Up to `2^57` there is room for a domain. -/
theorem padded_lt_of_small (hsmall : |ratOfFloat e.min| ≤ 2 ^ 57) :
    e.padded.exact.min < e.padded.exact.max := by
  have hv := exact_min_eq_max he heq
  have hmargin : e.margin = 10.0 := if_pos heq
  have hlow : ratOfFloat (e.min - 10.0) ≤ ratOfFloat e.min := by
    have h := lower_le he hv.le
    rw [hmargin] at h
    exact h (Double.isFinite_sub_ten he.1)
  have hhigh : ratOfFloat e.max ≤ ratOfFloat (e.max + 10.0) := by
    have h := le_upper he hv.le
    rw [hmargin] at h
    exact h (Double.isFinite_add_ten he.2)
  rw [(padded_exact he heq).2]
  dsimp only
  rcases lt_or_ge 0 (ratOfFloat e.min) with hpos | hneg
  · -- the lower end moves
    have hlt := Double.sub_ten_lt he.1 hsmall hpos
    rw [if_pos hpos.le]
    split
    next hmax =>
      exact max_lt (lt_min (by linarith) (by linarith)) (lt_min (by linarith) (by norm_num))
    next => exact max_lt (by linarith) (by linarith)
  · -- the upper end moves
    have hlt := Double.lt_add_ten he.2 (hv ▸ hsmall) (hv ▸ hneg)
    rw [if_pos (by linarith : ratOfFloat e.max ≤ 100)]
    split
    next =>
      exact max_lt (lt_min (by linarith) (by linarith)) (lt_min (by linarith) (by norm_num))
    next => exact lt_min (by linarith) (by linarith)

/-- Beyond, the padding is rounded away. -/
theorem padded_eq_of_large (hlarge : 2 ^ 57 < |ratOfFloat e.min|) :
    e.padded.exact.min = e.padded.exact.max := by
  have hv := exact_min_eq_max he heq
  have hlow : ratOfFloat (e.min - 10.0) = ratOfFloat e.min :=
    Double.eq_of_rounds_near he.1 (Double.sub_ten_rounds he.1) (by norm_num) hlarge
  have hhigh : ratOfFloat (e.max + 10.0) = ratOfFloat e.max :=
    Double.eq_of_rounds_near he.2 (Double.add_ten_rounds he.2) (by norm_num) (hv ▸ hlarge)
  rw [(padded_exact he heq).2, hlow, hhigh, ← hv]
  dsimp only
  split_ifs with hmin hmax hmax
  · rw [max_eq_left hmin, min_eq_left hmax]
  · rw [max_eq_left hmin]
  · rw [min_eq_left hmax]
  · rfl

end

/-! ## Values with a scale -/

/-- The values whose padded extent is a domain: if they are all equal, ten more or ten less has
    to make a difference, and otherwise the ends must not overflow. -/
inductive Fits (xs : List Float) : Prop where
  | equal {x : Float} : x ∈ xs → (∀ y ∈ xs, (y == x) = true) → |ratOfFloat x| ≤ 2 ^ 57 → Fits xs
  | apart {e : Extent Float} : raw? xs = .ok e → e.min < e.max →
    e.padded.min.isFinite = true → e.padded.max.isFinite = true → Fits xs

section
variable (he : e.Finite) (hspans : e.exact.Spans (xs.map ratOfFloat))
  (hxs : ∀ x ∈ xs, x.isFinite = true)

include he hspans hxs

/-- Values are equal to each other if their ends are. -/
theorem forall_beq (heq : (e.min == e.max) = true) : ∀ x ∈ xs, (x == e.min) = true := by
  intro x hx
  obtain ⟨hmin, hmax⟩ := hspans.covers _ (List.mem_map_of_mem hx)
  have hle : ratOfFloat x ≤ ratOfFloat e.min := hmax.trans (exact_min_eq_max he heq).ge
  exact (Double.beq_iff_rat (hxs x hx) he.1).2 (le_antisymm hle hmin)

/-- The least value is the number of every value that all are equal to. -/
theorem ratOfFloat_of_forall_beq {x : Float} (hx : x ∈ xs) (hall : ∀ y ∈ xs, (y == x) = true) :
    ratOfFloat e.min = ratOfFloat x ∧ (e.min == e.max) = true := by
  have hvalue : ∀ q ∈ xs.map ratOfFloat, q = ratOfFloat x := by
    intro q hq
    obtain ⟨y, hy, rfl⟩ := List.mem_map.1 hq
    exact (Double.beq_iff_rat (hxs y hy) (hxs x hx)).1 (hall y hy)
  have hmin : ratOfFloat e.min = ratOfFloat x := hvalue _ hspans.min_mem
  have hmax : ratOfFloat e.max = ratOfFloat x := hvalue _ hspans.max_mem
  exact ⟨hmin, (Double.beq_iff_rat he.1 he.2).2 (hmin.trans hmax.symm)⟩

/-- The padded ends are finite and differ exactly if the values fit. -/
theorem fits_iff (hraw : raw? xs = .ok e) (hne : xs ≠ []) :
    Fits xs ↔ e.padded.Finite ∧ (e.padded.min == e.padded.max) = false := by
  have hle := hspans.min_le_max
  constructor
  · rintro (⟨hx, hall, hsmall⟩ | ⟨hraw', hlt, hmin, hmax⟩)
    · obtain ⟨hvalue, heq⟩ := ratOfFloat_of_forall_beq he hspans hxs hx hall
      have hfinite := (padded_exact he heq).1
      refine ⟨hfinite, ?_⟩
      rw [Bool.eq_false_iff, ne_eq, Double.beq_iff_rat hfinite.1 hfinite.2]
      exact (padded_lt_of_small he heq (hvalue ▸ hsmall)).ne
    · obtain rfl : e = _ := Except.ok.inj (hraw.symm.trans hraw')
      refine ⟨⟨hmin, hmax⟩, ?_⟩
      rw [Bool.eq_false_iff, ne_eq, Double.beq_iff_rat hmin hmax]
      have hmin' := padded_min_le_min he hle hmin
      have hmax' := max_le_padded_max he hle hmax
      have hlt' := (Double.lt_iff_rat he.1 he.2).1 hlt
      exact (hmin'.trans_lt (hlt'.trans_le hmax')).ne
  · rintro ⟨hfinite, hdiffer⟩
    cases heq : e.min == e.max with
    | true =>
      obtain ⟨x, hx⟩ := List.exists_mem_of_ne_nil xs hne
      have hall := forall_beq he hspans hxs heq
      have hvalue := (Double.beq_iff_rat (hxs x hx) he.1).1 (hall x hx)
      refine .equal hx (fun y hy => BEq.trans (hall y hy) (BEq.symm (hall x hx))) ?_
      by_contra hlarge
      rw [hvalue, not_le] at hlarge
      have hsame := (Double.beq_iff_rat hfinite.1 hfinite.2).2 (padded_eq_of_large he heq hlarge)
      rw [hsame] at hdiffer
      cases hdiffer
    | false =>
      refine .apart hraw ((Double.lt_iff_rat he.1 he.2).2 ?_) hfinite.1 hfinite.2
      refine lt_of_le_of_ne hle fun hsame => ?_
      rw [(Double.beq_iff_rat he.1 he.2).2 hsame] at heq
      cases heq

end

/-- A scale whose domain is not empty and holds all values. -/
structure Holds (s : LinearScale Float) (xs : List Float) : Prop where
  start : s.domainStart.isFinite = true
  stop : s.domainEnd.isFinite = true
  lt : s.domainStart < s.domainEnd
  covers : ∀ x ∈ xs, s.domainStart ≤ x ∧ x ≤ s.domainEnd

/-- Finite values have a padded extent, which gives a scale exactly if they fit. -/
theorem fit?_finite (hne : xs ≠ []) (hxs : ∀ x ∈ xs, x.isFinite = true) (range : Float × Float)
    (hrange : range.1.isFinite = true ∧ range.2.isFinite = true) :
    ∃ e, fit? xs = .ok e ∧
      ((∃ s, LinearScale.ofExtent? e range = .ok s ∧ Holds s xs) ∧ Fits xs ∨
        LinearScale.ofExtent? e range = .error (.invalidData (.unmet .scaleDomain .nonzero)) ∧
          ¬ Fits xs) := by
  obtain ⟨e, hraw, he, hspans⟩ := raw?_finite hne hxs
  refine ⟨e.padded, by rw [fit?, hraw]; rfl, ?_⟩
  by_cases hfits : Fits xs
  · obtain ⟨⟨hmin, hmax⟩, hdiffer⟩ := (fits_iff he hspans hxs hraw hne).1 hfits
    have hlow := padded_min_le_min he hspans.min_le_max hmin
    have hhigh := max_le_padded_max he hspans.min_le_max hmax
    have hlt : e.padded.min < e.padded.max := by
      refine (Double.lt_iff_rat hmin hmax).2 (lt_of_le_of_ne ?_ fun hsame => ?_)
      · exact hlow.trans (hspans.min_le_max.trans hhigh)
      · rw [(Double.beq_iff_rat hmin hmax).2 hsame] at hdiffer
        cases hdiffer
    have hcovers (x : Float) (hx : x ∈ xs) : e.padded.min ≤ x ∧ x ≤ e.padded.max := by
      obtain ⟨hge, hle⟩ := hspans.covers _ (List.mem_map_of_mem hx)
      exact ⟨(Double.le_iff_rat hmin (hxs x hx)).2 (hlow.trans hge),
        (Double.le_iff_rat (hxs x hx) hmax).2 (hle.trans hhigh)⟩
    have hmake : LinearScale.ofExtent? e.padded range = .ok _ :=
      LinearScale.make?_eq_ok.2 ⟨⟨hmin, hmax, hdiffer⟩, hrange, rfl⟩
    exact .inl ⟨⟨_, hmake, hmin, hmax, hlt, hcovers⟩, hfits⟩
  · refine .inr ⟨?_, hfits⟩
    rw [fits_iff he hspans hxs hraw hne] at hfits
    have hcheck : (Scalar.isFinite e.padded.min && Scalar.isFinite e.padded.max &&
        !(e.padded.min == e.padded.max)) = false := by
      rw [Bool.eq_false_iff]
      intro hcheck
      simp only [Bool.and_eq_true, Bool.not_eq_true'] at hcheck
      exact hfits hcheck
    rw [LinearScale.ofExtent?, LinearScale.make?, hcheck]
    rfl

/-! ## Values of ordinary size -/

theorem double_zpow : (2 : Rat) ^ (1021 : Int) + 2 ^ (1021 : Int) = 2 ^ (1022 : Int) := by
  rw [← two_mul, ← zpow_one_add₀ two_ne_zero]
  rfl

section
variable (he : e.Finite) (hmin : |ratOfFloat e.min| ≤ 2 ^ (1021 : Int))
  (hmax : |ratOfFloat e.max| ≤ 2 ^ (1021 : Int))

include he hmin hmax

theorem margin_isFinite : e.margin.isFinite = true ∧ |ratOfFloat e.margin| ≤ 2 ^ (1021 : Int) := by
  unfold margin
  split
  next =>
    refine ⟨rfl, ?_⟩
    rw [Double.ratOfFloat_ten]
    calc |(10 : Rat)| ≤ 2 ^ (4 : Int) := by norm_num
      _ ≤ 2 ^ (1021 : Int) := zpow_le_zpow_right₀ one_le_two (by decide)
  next =>
    have hspan : |ratOfFloat e.max - ratOfFloat e.min| ≤ 2 ^ (1022 : Int) := by
      calc |ratOfFloat e.max - ratOfFloat e.min| ≤ |ratOfFloat e.max| + |ratOfFloat e.min| :=
            abs_sub _ _
        _ ≤ 2 ^ (1021 : Int) + 2 ^ (1021 : Int) := add_le_add hmax hmin
        _ = 2 ^ (1022 : Int) := double_zpow
    obtain ⟨hfinite, hspan'⟩ := (Double.sub_rounds he.2 he.1).abs_le_zpow (by decide) hspan
    have hratio : |ratOfFloat 0.05| ≤ 1 / 2 := by
      rw [abs_of_nonneg ratOfFloat_ratio.1]
      exact ratOfFloat_ratio.2
    refine (Double.mul_rounds (by decide) hfinite).abs_le_zpow (by decide) ?_
    rw [abs_mul]
    calc |ratOfFloat 0.05| * |ratOfFloat e.span| ≤ 1 / 2 * 2 ^ (1022 : Int) :=
          mul_le_mul hratio hspan' (abs_nonneg _) (by norm_num)
      _ = 2 ^ (1021 : Int) := by rw [← double_zpow]; ring

/-- Up to `2^1021` nothing overflows. -/
theorem padded_isFinite : e.padded.Finite := by
  obtain ⟨hmargin, hmargin'⟩ := margin_isFinite he hmin hmax
  have hlow : (e.min - e.margin).isFinite = true := by
    refine ((Double.sub_rounds he.1 hmargin).abs_le_zpow (k := 1022) (by decide) ?_).1
    exact (abs_sub _ _).trans ((add_le_add hmin hmargin').trans_eq double_zpow)
  have hhigh : (e.max + e.margin).isFinite = true := by
    refine ((Double.add_rounds he.2 hmargin).abs_le_zpow (k := 1022) (by decide) ?_).1
    exact (abs_add_le _ _).trans ((add_le_add hmax hmargin').trans_eq double_zpow)
  exact padded_finite hlow hhigh

end

/-- Without extremes only values that are all equal may not fit. -/
theorem fits_iff_of_ordinary (hne : xs ≠ [])
    (hxs : ∀ x ∈ xs, x.isFinite = true ∧ |ratOfFloat x| ≤ 2 ^ (1021 : Int)) :
    Fits xs ↔ ∀ x ∈ xs, (∀ y ∈ xs, (y == x) = true) → |ratOfFloat x| ≤ 2 ^ 57 := by
  have hfinite : ∀ x ∈ xs, x.isFinite = true := fun x hx => (hxs x hx).1
  obtain ⟨e, hraw, he, hspans⟩ := raw?_finite hne hfinite
  constructor
  · rintro (⟨hx, hall, hsmall⟩ | ⟨hraw', hlt, -, -⟩) x' hx' hall'
    · rwa [(Double.beq_iff_rat (hfinite _ hx') (hfinite _ hx)).1 (hall x' hx')]
    · obtain rfl : e = _ := Except.ok.inj (hraw.symm.trans hraw')
      have heq := (ratOfFloat_of_forall_beq he hspans hfinite hx' hall').2
      exact absurd (Double.le_of_beq (BEq.symm heq)) (Double.not_le_of_lt hlt)
  · intro hsmall
    have hordinary : ∀ q ∈ xs.map ratOfFloat, |q| ≤ 2 ^ (1021 : Int) := by
      simpa using fun x hx => (hxs x hx).2
    have hpadded := padded_isFinite he (hordinary _ hspans.min_mem) (hordinary _ hspans.max_mem)
    cases heq : e.min == e.max with
    | true =>
      obtain ⟨x, hx⟩ := List.exists_mem_of_ne_nil xs hne
      have hall := forall_beq he hspans hfinite heq
      have hall' (y : Float) (hy : y ∈ xs) : (y == x) = true :=
        BEq.trans (hall y hy) (BEq.symm (hall x hx))
      exact .equal hx hall' (hsmall x hx hall')
    | false =>
      refine .apart hraw ?_ hpadded.1 hpadded.2
      refine (Double.lt_iff_rat he.1 he.2).2 (lt_of_le_of_ne hspans.min_le_max fun hsame => ?_)
      rw [(Double.beq_iff_rat he.1 he.2).2 hsame] at heq
      cases heq

end Extent

end CourseCharts

/-
  CourseCharts — which points can be fitted.

  In exact arithmetic all points have scales (`Scales.fit?_rat`).  Doubles lose
  the padding of large values that are all equal, and overflow.

  * `Point.Finite`: a point whose numbers are finite;
  * `Scales.fit?_finite`: the scales of finite points, if the values fit in both
    directions;
  * `finite_points_fit`: and what that comes to.
-/
import CourseCharts.Proofs.Scale.Fitting
import CourseCharts.Proofs.Scatter.Projection

namespace CourseCharts.Scatter

open Scalar (ratOfFloat)

/-- The numbers of the point are finite. -/
structure Point.Finite (p : Point Float) : Prop where
  x : p.x.isFinite = true
  y : p.y.isFinite = true
  outlier : ∀ o, p.outlier = some o → o.isFinite = true

theorem Point.Finite.value {p : Point Float} (h : p.Finite) (showOutliers : Bool)
    (dir : Direction) : (p.value showOutliers dir).isFinite = true := by
  cases dir with
  | x => exact h.x
  | y =>
    unfold Point.value Point.shownY
    cases showOutliers with
    | false => exact h.y
    | true =>
      cases ho : p.outlier with
      | none => exact h.y
      | some o => exact h.outlier o ho

/-- The values of points in a direction. -/
def Point.values (points : List (Point Float)) (showOutliers : Bool) (dir : Direction) :
    List Float := points.map (·.value showOutliers dir)

theorem Point.values_ne_nil {points : List (Point Float)} (hne : points ≠ [])
    (showOutliers : Bool) (dir : Direction) : values points showOutliers dir ≠ [] := by
  simpa [values] using hne

theorem Point.isFinite_of_mem_values {points : List (Point Float)}
    (hpoints : ∀ p ∈ points, p.Finite) {showOutliers : Bool} {dir : Direction} {x : Float}
    (hx : x ∈ values points showOutliers dir) : x.isFinite = true := by
  obtain ⟨p, hp, rfl⟩ := List.mem_map.1 hx
  exact (hpoints p hp).value showOutliers dir

namespace Scales

variable {points : List (Point Float)} {plot : PlotArea Float} {showOutliers : Bool}

/-- Finite points have scales that hold them exactly if their values fit. -/
theorem fit?_finite (hplot : plot.isValid = true) (hne : points ≠ [])
    (hpoints : ∀ p ∈ points, p.Finite) :
    (∃ s, fit? points showOutliers plot = .ok s ∧ ∀ dir,
        Extent.Holds (s.along dir) (Point.values points showOutliers dir) ∧
          Extent.Fits (Point.values points showOutliers dir)) ∨
      fit? points showOutliers plot = .error (.invalidData (.unmet .scaleDomain .nonzero)) ∧
        ∃ dir, ¬ Extent.Fits (Point.values points showOutliers dir) := by
  obtain ⟨hwidth, hheight⟩ := Bool.and_eq_true_iff.1 hplot
  have hfinite (dir : Direction) (x : Float) (hx : x ∈ Point.values points showOutliers dir) :
      x.isFinite = true := Point.isFinite_of_mem_values hpoints hx
  have hzero : (0.0 : Float).isFinite = true := rfl
  obtain ⟨ex, hex, hx⟩ := Extent.fit?_finite (Point.values_ne_nil hne _ .x) (hfinite .x)
    (0.0, plot.width) ⟨hzero, Requirement.finite_of_holds hwidth⟩
  obtain ⟨ey, hey, hy⟩ := Extent.fit?_finite (Point.values_ne_nil hne _ .y) (hfinite .y)
    (plot.height, 0.0) ⟨Requirement.finite_of_holds hheight, hzero⟩
  have hfit : fit? points showOutliers plot = do
      return ⟨← LinearScale.ofExtent? ex (0.0, plot.width),
        ← LinearScale.ofExtent? ey (plot.height, 0.0)⟩ := by
    have hxs : Extent.fit? (points.map (·.x)) = .ok ex := hex
    have hys : Extent.fit? (points.map (·.shownY showOutliers)) = .ok ey := hey
    rw [fit?, hxs, hys]
    rfl
  rw [hfit]
  obtain ⟨⟨x, hxmake, hxholds⟩, hxfits⟩ | ⟨hxmake, hxfits⟩ := hx
  · obtain ⟨⟨y, hymake, hyholds⟩, hyfits⟩ | ⟨hymake, hyfits⟩ := hy
    · refine .inl ⟨⟨x, y⟩, by rw [hxmake, hymake]; rfl, fun dir => ?_⟩
      cases dir with
      | x => exact ⟨hxholds, hxfits⟩
      | y => exact ⟨hyholds, hyfits⟩
    · exact .inr ⟨by rw [hxmake, hymake]; rfl, .y, hyfits⟩
  · exact .inr ⟨by rw [hxmake]; rfl, .x, hxfits⟩

end Scales

/-- **Which points can be fitted.** Let there be points whose numbers are all finite, and a plot
    with an area.
    The points have scales exactly if their values fit in both directions: values that are all
    equal if they are at most `2^57`, so that ten more or ten less is not rounded away, and
    other values if their padded ends do not overflow.
    Then the domains are finite and not empty, and hold all values; otherwise the domain is
    refused.
    Values up to `2^1021` never overflow, so that they fit unless they are all equal to one
    beyond `2^57`. -/
theorem finite_points_fit {points : List (Point Float)} {plot : PlotArea Float}
    (hplot : plot.isValid = true) (hne : points ≠ []) (hpoints : ∀ p ∈ points, p.Finite)
    (showOutliers : Bool) :
    let values := Point.values points showOutliers
    ((∃ s, Scales.fit? points showOutliers plot = .ok s) ↔ ∀ dir, Extent.Fits (values dir)) ∧
    (∀ s, Scales.fit? points showOutliers plot = .ok s →
      ∀ dir, Extent.Holds (s.along dir) (values dir)) ∧
    ((∃ dir, ¬ Extent.Fits (values dir)) → Scales.fit? points showOutliers plot =
      .error (.invalidData (.unmet .scaleDomain .nonzero))) ∧
    ∀ dir, (∀ x ∈ values dir, |ratOfFloat x| ≤ 2 ^ (1021 : Int)) →
      (Extent.Fits (values dir) ↔
        ∀ x ∈ values dir, (∀ y ∈ values dir, (y == x) = true) → |ratOfFloat x| ≤ 2 ^ 57) := by
  intro values
  have hordinary (dir : Direction) (hbound : ∀ x ∈ values dir, |ratOfFloat x| ≤ 2 ^ (1021 : Int)) :
      Extent.Fits (values dir) ↔
        ∀ x ∈ values dir, (∀ y ∈ values dir, (y == x) = true) → |ratOfFloat x| ≤ 2 ^ 57 := by
    refine Extent.fits_iff_of_ordinary (Point.values_ne_nil hne _ _) fun x hx => ?_
    exact ⟨Point.isFinite_of_mem_values hpoints hx, hbound x hx⟩
  obtain ⟨s, hs, hdirs⟩ | ⟨he, dir, hdir⟩ := Scales.fit?_finite hplot hne hpoints
  · refine ⟨⟨fun _ dir => (hdirs dir).2, fun _ => ⟨s, hs⟩⟩, fun s' hs' dir => ?_,
      fun ⟨dir, hdir⟩ => absurd (hdirs dir).2 hdir, hordinary⟩
    obtain rfl : s = s' := Except.ok.inj (hs.symm.trans hs')
    exact (hdirs dir).1
  · refine ⟨⟨fun ⟨s, hs⟩ => ?_, fun hall => absurd (hall dir) hdir⟩, fun s hs => ?_, fun _ => he,
      hordinary⟩
    · cases he.symm.trans hs
    · cases he.symm.trans hs

/-- A single point at `2^57` can be fitted, but not one at `10^18`. -/
theorem finite_points_fit_large :
    let one (x : Float) : List (Point Float) := [⟨⟨"17"⟩, x, 5.0, none, "ann", "tour"⟩]
    let plot : PlotArea Float := ⟨0.0, 0.0, 100.0, 100.0⟩
    (∃ s, Scales.fit? (one 144115188075855872.0) false plot = .ok s ∧
      Extent.Holds s.x [144115188075855872.0]) ∧
    Scales.fit? (one 1000000000000000000.0) false plot =
      .error (.invalidData (.unmet .scaleDomain .nonzero)) := by
  intro one plot
  have hplot : plot.isValid = true := by decide
  have hfinite (x : Float) (hx : x.isFinite = true) : ∀ p ∈ one x, p.Finite := by
    intro p hp
    obtain rfl := List.mem_singleton.1 hp
    have hy : (5.0 : Float).isFinite = true := by decide
    exact ⟨hx, hy, fun _ ho => nomatch ho⟩
  have hfive : |ratOfFloat 5.0| ≤ 2 ^ 57 := by
    have hvalue : ratOfFloat 5.0 = Scalar.ofBinary (5 * 2 ^ 50) (-50) := rfl
    rw [hvalue, Double.ofBinary_eq]
    norm_num
  have hlarge : |ratOfFloat 144115188075855872.0| ≤ 2 ^ 57 := by
    have hvalue : ratOfFloat 144115188075855872.0 = Scalar.ofBinary (2 ^ 52) 5 := rfl
    rw [hvalue, Double.ofBinary_eq]
    norm_num
  have hlarger : ratOfFloat 1000000000000000000.0 = 10 ^ 18 := by
    have hvalue : ratOfFloat 1000000000000000000.0 = Scalar.ofBinary (5 ^ 18 * 2 ^ 11) 7 := rfl
    rw [hvalue, Double.ofBinary_eq]
    norm_num
  constructor
  · obtain ⟨hfits, hholds, -, -⟩ := finite_points_fit hplot (List.cons_ne_nil _ _)
      (hfinite 144115188075855872.0 (by decide)) false
    obtain ⟨s, hs⟩ := hfits.2 fun dir => by
      cases dir with
      | x => exact .equal (List.mem_singleton_self _) (by decide) hlarge
      | y => exact .equal (List.mem_singleton_self _) (by decide) hfive
    exact ⟨s, hs, hholds s hs .x⟩
  · obtain ⟨-, -, hrefused, hordinary⟩ := finite_points_fit hplot (List.cons_ne_nil _ _)
      (hfinite 1000000000000000000.0 (by decide)) false
    refine hrefused ⟨.x, fun hfits => ?_⟩
    have hbound : |ratOfFloat 1000000000000000000.0| ≤ 2 ^ (1021 : Int) := by
      rw [hlarger]
      calc |(10 : Rat) ^ 18| ≤ 2 ^ (60 : Int) := by norm_num
        _ ≤ 2 ^ (1021 : Int) := zpow_le_zpow_right₀ one_le_two (by decide)
    have hsmall : |ratOfFloat 1000000000000000000.0| ≤ 2 ^ 57 :=
      (hordinary .x (List.forall_mem_singleton.2 hbound)).1 hfits _ (List.mem_singleton_self _)
        (by decide)
    rw [hlarger] at hsmall
    norm_num at hsmall

end CourseCharts.Scatter

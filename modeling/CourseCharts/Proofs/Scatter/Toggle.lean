/-
  CourseCharts — showing and hiding outliers.

  Outliers change the scale of the values, so every marker may move when they
  are toggled; but only points with an outlier of their own stand for another
  value afterwards.

  * `Scales.shown_rat`: in exact arithmetic points can always be shown, and
    `Scales.fit?_x`: the scale of `x` does not depend on the outliers;
  * `Chart.drawn` is what a chart shows that is drawn from scratch; nothing
    that was shown before matters (`Chart.redraw_alike`);
  * `outlier_toggle_moves_outliers`: both together.
-/
import CourseCharts.Proofs.Scale.Extent
import CourseCharts.Proofs.Scatter.Config
import CourseCharts.Proofs.Scatter.Invariant
import CourseCharts.Proofs.Scatter.Surfaces
import CourseCharts.Proofs.Scatter.Zoom

namespace CourseCharts.Scatter

/-! ## Values and their places -/

namespace Scales

/-- The horizontal scale is the same for all ways to show the points. -/
theorem fit?_x {α : Type} [Scalar α] {points : List (Point α)} {plot : PlotArea α}
    {showOutliers showOutliers' : Bool} {s s' : Scales α}
    (h : fit? points showOutliers plot = .ok s) (h' : fit? points showOutliers' plot = .ok s') :
    s'.x = s.x := by
  simp only [fit?, bind_eq_ok, pure_eq_ok] at h h'
  obtain ⟨e, he, _, -, x, hx, _, -, rfl⟩ := h
  obtain ⟨e', he', _, -, x', hx', _, -, rfl⟩ := h'
  obtain rfl := Except.ok.inj (he.symm.trans he')
  exact Except.ok.inj (hx'.symm.trans hx)

variable {points : List (Point Rat)} {plot : PlotArea Rat}

/-- Points always have scales, which lead from values to places and back. -/
theorem fit?_rat (hplot : plot.isValid = true) (hpoints : points ≠ []) (showOutliers : Bool) :
    ∃ s, fit? points showOutliers plot = .ok s ∧ s.x.Proper ∧ s.y.Proper := by
  obtain ⟨hwidth, hheight⟩ := Bool.and_eq_true_iff.1 hplot
  rw [Requirement.positive_rat] at hwidth hheight
  have hscale {e : Extent Rat} (he : e.min < e.max) (range : Rat × Rat)
      (hrange : range.1 ≠ range.2) : ∃ s, LinearScale.ofExtent? e range = .ok s ∧ s.Proper := by
    have hmake : LinearScale.ofExtent? e range = .ok ⟨e.min, e.max, range.1, range.2⟩ :=
      LinearScale.make?_eq_ok.2 ⟨⟨rfl, rfl, beq_eq_false_iff_ne.2 he.ne⟩, ⟨rfl, rfl⟩, rfl⟩
    exact ⟨_, hmake, he.ne, hrange⟩
  have hxs : points.map (·.x) ≠ [] := by simpa
  have hys : points.map (·.shownY showOutliers) ≠ [] := by simpa
  obtain ⟨ex, hex, hx, -⟩ := Extent.fit?_rat hxs
  obtain ⟨ey, hey, hy, -⟩ := Extent.fit?_rat hys
  have hzero : (0.0 : Rat) = 0 := Exact.zero
  obtain ⟨x, hxmake, hxproper⟩ := hscale hx (0.0, plot.width) (by simpa [hzero] using hwidth.ne)
  obtain ⟨y, hymake, hyproper⟩ :=
    hscale hy (plot.height, 0.0) (by simpa [hzero] using hheight.ne')
  refine ⟨⟨x, y⟩, ?_, hxproper, hyproper⟩
  simp only [fit?, bind_eq_ok, pure_eq_ok]
  exact ⟨ex, hex, ey, hey, x, hxmake, y, hymake, rfl⟩

/-- Points can always be shown, and the markers stand for what is shown of the points. -/
theorem shown_rat (hplot : plot.isValid = true) (hpoints : points ≠ []) (showOutliers : Bool)
    (xCount yCount : Nat) : ∃ (s : Scales Rat) (p : Projection Rat),
      fit? points showOutliers plot = .ok s ∧
      Projection.ofPoints? points s showOutliers xCount yCount = .ok p ∧
      p.Places points s showOutliers xCount yCount ∧
      ∀ point, s.y.toValue? (s.marker showOutliers point).y = .ok (point.shownY showOutliers) := by
  obtain ⟨s, hs, -, hproper⟩ := fit?_rat hplot hpoints showOutliers
  obtain ⟨p, hp, -⟩ := Projection.ofPoints?_rat points s showOutliers xCount yCount
  refine ⟨s, p, hs, hp, .of_ofPoints? hp, fun point => ?_⟩
  rw [hproper.toValue?_eq]
  exact congrArg _ hproper.valueAt_pixel

end Scales

/-- A point stands for another value with its outlier if that is another value. -/
theorem Point.shownY_ne {α : Type} {p : Point α} :
    p.shownY true ≠ p.shownY false ↔ ∃ o, p.outlier = some o ∧ o ≠ p.y := by
  cases h : p.outlier <;> simp [shownY, h]

/-! ## Drawing from scratch -/

namespace Chart

variable {α σ τ : Type} [Scalar α]

/-- The scales and the projection of a chart that is drawn from scratch. -/
def drawn (c : Chart α σ) : Option (Scales α × Projection α) :=
  match c.dataset with
  | none => none
  | some d => if d.points.isEmpty then none else (c.fit? d).toOption

variable [Surface σ α] [Surface τ α]

theorem redraw_eq (c : Chart α σ) : ∃ surface, c.redraw.2 = { c.reset with
    base := c.drawn.map Prod.fst
    projection := c.drawn.map Prod.snd
    surface } := by
  obtain ⟨surface, config, presentation, dataset, base, zoom, projection, animation⟩ := c
  cases dataset with
  | none => exact ⟨_, rfl⟩
  | some d =>
    simp only [redraw, drawn, reset]
    split
    next => exact ⟨_, rfl⟩
    next =>
      have hfit : fit? ⟨surface, config, presentation, some d, none, .identity, none, none⟩ d
          = fit? ⟨surface, config, presentation, some d, base, zoom, projection, animation⟩ d := rfl
      rw [hfit]
      split
      next he => exact ⟨_, by rw [he]; rfl⟩
      next he => exact ⟨_, by rw [he]; rfl⟩

/-- Points that have scales and a projection are shown without a zoom. -/
theorem redraw_shows [LawfulScalar α] {c : Chart α σ} {d : Dataset α} {s : Scales α}
    {p : Projection α} (hd : c.dataset = some d) (hpoints : d.points ≠ [])
    (hfit : c.fit? d = .ok (s, p)) :
    c.redraw.2.currentScales = .ok (some s) ∧ c.redraw.2.projection = some p ∧
      c.redraw.2.frame = d.frame c.config c.showOutliers p := by
  have hdrawn : c.drawn = some (s, p) := by
    simp [drawn, hd, hpoints, hfit, Except.toOption]
  obtain ⟨surface, he⟩ := c.redraw_eq
  rw [hdrawn] at he
  rw [he]
  refine ⟨?_, rfl, ?_⟩
  · simp [currentScales, reset, Scales.zoomed?_identity, Except.map]
  · simp [frame, shown, frameOf, reset, hd, showOutliers]

/-- What is drawn from scratch only depends on what there is to draw. -/
theorem redraw_alike {c : Chart α σ} {c' : Chart α τ} (hconfig : c'.config = c.config)
    (hpresentation : c'.presentation = c.presentation) (hdataset : c'.dataset = c.dataset) :
    ∃ t, c'.redraw.2 = c.redraw.2.on t := by
  obtain ⟨s, hs⟩ := c.redraw_eq
  obtain ⟨t, ht⟩ := c'.redraw_eq
  obtain ⟨_, config, presentation, dataset, _, _, _, _⟩ := c
  obtain ⟨_, _, _, _, _, _, _, _⟩ := c'
  obtain rfl : _ = config := hconfig
  obtain rfl : _ = presentation := hpresentation
  obtain rfl : _ = dataset := hdataset
  rw [hs, ht]
  exact ⟨t, rfl⟩

/-- Outliers that were toggled twice are as they were, and the data are drawn from scratch. -/
theorem toggled_twice (c : Chart α σ) : ∃ c₁ : Chart α σ, c₁.config = c.config ∧
    c₁.presentation = c.presentation ∧ c₁.dataset = c.dataset ∧
    c.after [.toggleOutliers, .toggleOutliers] = c₁.redraw.2 := by
  let once : Chart α σ := c.toggleOutliers.2
  obtain ⟨hconfig, hpresentation, hdataset⟩ :=
    redraw_keeps { c with presentation := c.presentation.toggleOutliers }
  refine ⟨{ once with presentation := once.presentation.toggleOutliers }, hconfig, ?_, hdataset,
    rfl⟩
  have honce : once.presentation = c.presentation.toggleOutliers := hpresentation
  dsimp only
  rw [honce]
  simp [Presentation.toggleOutliers]

end Chart

/-- **Toggling outliers moves the outliers.** In exact arithmetic the points of a chart always
    have scales and a projection, with outliers hidden and with outliers shown, and both have the
    same horizontal scale, horizontal ticks and horizontal places. Every marker stands for the
    value that is shown of its point, so that the toggle changes what it stands for exactly
    if the point has an outlier that is not its value.
    A chart that is toggled twice, be it zoomed or animated, shows what any chart does that
    renders the same data; and in exact arithmetic that is a projection of the data. -/
theorem outlier_toggle_moves_outliers :
    (∀ (plot : PlotArea Rat) (points : List (Point Rat)) (xCount yCount : Nat),
      plot.isValid = true → points ≠ [] →
      ∃ s₀ p₀ s₁ p₁,
        Scales.fit? points false plot = .ok s₀ ∧
        Projection.ofPoints? points s₀ false xCount yCount = .ok p₀ ∧
        Scales.fit? points true plot = .ok s₁ ∧
        Projection.ofPoints? points s₁ true xCount yCount = .ok p₁ ∧
        s₁.x = s₀.x ∧ p₁.xTicks = p₀.xTicks ∧ p₁.xPrecision = p₀.xPrecision ∧
        p₀.markers.length = points.length ∧ p₁.markers.length = points.length ∧
        ∀ (i : Nat) (point : Point Rat), points[i]? = some point →
          ∃ m₀ m₁, p₀.markers[i]? = some m₀ ∧ p₁.markers[i]? = some m₁ ∧ m₁.x = m₀.x ∧
            s₀.y.toValue? m₀.y = .ok point.y ∧ s₁.y.toValue? m₁.y = .ok (point.shownY true) ∧
            (s₁.y.toValue? m₁.y ≠ s₀.y.toValue? m₀.y ↔
              ∃ o, point.outlier = some o ∧ o ≠ point.y)) ∧
    (∀ {α σ τ : Type} [Scalar α] [Surface σ α] [Surface τ α] (c : Chart α σ) (d : Dataset α)
      (fresh : Chart α τ), c.dataset = some d → fresh.config = c.config →
      fresh.presentation = c.presentation →
      let twice := c.after [.toggleOutliers, .toggleOutliers]
      let rendered := (fresh.render d).2
      twice.presentation = rendered.presentation ∧ twice.base = rendered.base ∧
        twice.zoom = rendered.zoom ∧ twice.currentScales = rendered.currentScales ∧
        twice.projection = rendered.projection ∧ twice.animation = rendered.animation ∧
        twice.frame = rendered.frame) ∧
    (∀ {σ : Type} [Surface σ Rat] (c : Chart Rat σ) (d : Dataset Rat),
      c.config.validate = .ok () → c.dataset = some d → d.points ≠ [] →
      let twice := c.after [.toggleOutliers, .toggleOutliers]
      ∃ s p, Scales.fit? d.points c.showOutliers c.config.plotArea = .ok s ∧
        Projection.ofPoints? d.points s c.showOutliers c.config.xTickCount c.config.yTickCount
          = .ok p ∧
        twice.presentation = c.presentation ∧ twice.currentScales = .ok (some s) ∧
        twice.projection = some p ∧ twice.frame = d.frame c.config c.showOutliers p) := by
  refine ⟨fun plot points xCount yCount hplot hpoints => ?_,
    fun {α σ τ} _ _ _ c d fresh hd hconfig hpresentation => ?_,
    fun {σ} _ c d hvalid hd hpoints => ?_⟩
  · obtain ⟨s₀, p₀, hs₀, hp₀, hplaces₀, hvalue₀⟩ :=
      Scales.shown_rat hplot hpoints false xCount yCount
    obtain ⟨s₁, p₁, hs₁, hp₁, hplaces₁, hvalue₁⟩ :=
      Scales.shown_rat hplot hpoints true xCount yCount
    have hx := Scales.fit?_x hs₀ hs₁
    refine ⟨s₀, p₀, s₁, p₁, hs₀, hp₀, hs₁, hp₁, hx, ?_, ?_, ?_, ?_, fun i point hi => ?_⟩
    · rw [hplaces₀.xTicks, hplaces₁.xTicks, hx]
    · rw [hplaces₀.xPrecision, hplaces₁.xPrecision, hx]
    · rw [hplaces₀.markers, List.length_map]
    · rw [hplaces₁.markers, List.length_map]
    · refine ⟨_, _, hplaces₀.marker hi, hplaces₁.marker hi, ?_, hvalue₀ point, hvalue₁ point, ?_⟩
      · simp only [Scales.marker, hx]
      · rw [hvalue₀, hvalue₁, Ne, Except.ok.injEq]
        exact Point.shownY_ne
  · obtain ⟨c₁, hconfig₁, hpresentation₁, hdataset₁, htwice⟩ := c.toggled_twice
    obtain ⟨t, ht⟩ : ∃ t, (Chart.redraw { fresh with dataset := some d }).2 = c₁.redraw.2.on t :=
      Chart.redraw_alike (hconfig.trans hconfig₁.symm) (hpresentation.trans hpresentation₁.symm)
        (hd.symm.trans hdataset₁.symm)
    dsimp only
    rw [htwice, Chart.render, ht]
    exact ⟨rfl, rfl, rfl, rfl, rfl, rfl, rfl⟩
  · obtain ⟨c₁, hconfig₁, hpresentation₁, hdataset₁, htwice⟩ := c.toggled_twice
    have haccepted := Config.validate_eq_ok.1 hvalid
    have hplot : c.config.plotArea.isValid = true :=
      Bool.and_eq_true_iff.2 ⟨haccepted.width, haccepted.height⟩
    obtain ⟨s, p, hs, hp, -⟩ := Scales.shown_rat hplot hpoints c.showOutliers c.config.xTickCount
      c.config.yTickCount
    have hshow : c₁.showOutliers = c.showOutliers := congrArg (·.showOutliers) hpresentation₁
    have hfit : c₁.fit? d = .ok (s, p) := by
      rw [Chart.fit?_eq_ok, hconfig₁, hshow]
      exact ⟨hs, hp⟩
    obtain ⟨hscales, hprojection, hframe⟩ := Chart.redraw_shows (c := c₁)
      (hdataset₁.trans hd) hpoints hfit
    have hkept : c₁.redraw.2.presentation = c.presentation :=
      (Chart.redraw_keeps c₁).2.1.trans hpresentation₁
    rw [hconfig₁, hshow] at hframe
    dsimp only
    rw [htwice]
    exact ⟨s, p, hs, hp, hkept, hscales, hprojection, hframe⟩

/-- A point with an outlier, one whose outlier is its value, and one without. -/
def Dataset.threePoints : Dataset Rat where
  points := [⟨⟨"17"⟩, 10, 20, some 80, "ann", "tour"⟩, ⟨⟨"23"⟩, 50, 50, some 50, "ben", "tour"⟩,
    ⟨⟨"42"⟩, 90, 40, none, "", "tour"⟩]
  xAxis := ⟨"Score", "%"⟩
  yAxis := ⟨"Time", ""⟩
  grouping := .project

/-- Of these points the first one stands for another value after a toggle, the second one for
    the same value. -/
theorem outlier_toggle_moves_outliers_three_points :
    let plot := (Config.standard : Config Rat).plotArea
    let points := Dataset.threePoints.points
    (∃ (s₀ s₁ : Scales Rat) (p₀ p₁ : Projection Rat),
      Scales.fit? points false plot = .ok s₀ ∧ Projection.ofPoints? points s₀ false 7 5 = .ok p₀ ∧
      Scales.fit? points true plot = .ok s₁ ∧ Projection.ofPoints? points s₁ true 7 5 = .ok p₁ ∧
      (∃ m₀ m₁ : Marker Rat, p₀.markers[0]? = some m₀ ∧ p₁.markers[0]? = some m₁ ∧
        s₁.y.toValue? m₁.y ≠ s₀.y.toValue? m₀.y) ∧
      ∃ m₀ m₁ : Marker Rat, p₀.markers[1]? = some m₀ ∧ p₁.markers[1]? = some m₁ ∧
        s₁.y.toValue? m₁.y = s₀.y.toValue? m₀.y) ∧
    ∃ c, Chart.make? (HeadlessSurface.initial : HeadlessSurface Rat) Config.standard = .ok c ∧
      let c' := c.after [.render .threePoints]
      (c'.after [.toggleOutliers, .toggleOutliers]).frame = (c'.render .threePoints).2.frame ∧
        (c'.after [.toggleOutliers, .toggleOutliers]).projection.isSome = true := by
  intro plot points
  obtain ⟨hvalues, htwice, hshown⟩ := outlier_toggle_moves_outliers
  have hvalid : (Config.standard : Config Rat).validate = .ok () := by decide +kernel
  have hpoints : points ≠ [] := by simp [points, Dataset.threePoints]
  constructor
  · have hplot : plot.isValid = true := by decide +kernel
    obtain ⟨s₀, p₀, s₁, p₁, hs₀, hp₀, hs₁, hp₁, -, -, -, -, -, h⟩ :=
      hvalues plot points 7 5 hplot hpoints
    obtain ⟨m₀, m₁, hm₀, hm₁, -, -, -, hmoves⟩ := h 0 _ rfl
    obtain ⟨n₀, n₁, hn₀, hn₁, -, -, -, hstays⟩ := h 1 _ rfl
    refine ⟨s₀, s₁, p₀, p₁, hs₀, hp₀, hs₁, hp₁, ⟨m₀, m₁, hm₀, hm₁, ?_⟩, n₀, n₁, hn₀, hn₁, ?_⟩
    · exact hmoves.2 ⟨_, rfl, by norm_num⟩
    · by_contra hne
      obtain ⟨_, ho, hother⟩ := hstays.1 hne
      exact hother (Option.some.inj ho).symm
  · let empty : Chart Rat (HeadlessSurface Rat) :=
      ⟨.initial, .standard, .standard, none, none, .identity, none, none⟩
    have hc : Chart.make? (HeadlessSurface.initial : HeadlessSurface Rat) Config.standard =
        .ok empty := Chart.make?_eq_ok.2 ⟨hvalid, rfl⟩
    have hkept (c : Chart Rat (HeadlessSurface Rat)) (d : Dataset Rat) :
        (c.after [.render d]).config = c.config ∧ (c.after [.render d]).dataset = some d :=
      ⟨(Chart.redraw_keeps _).1, (Chart.redraw_keeps _).2.2⟩
    obtain ⟨hconfig, hdataset⟩ := hkept empty .threePoints
    refine ⟨empty, hc, ?_, ?_⟩
    · obtain ⟨-, -, -, -, -, -, hframe⟩ := htwice _ .threePoints _ hdataset rfl rfl
      exact hframe
    · obtain ⟨_, _, -, -, -, -, hp, -⟩ := hshown _ .threePoints
        ((congrArg Config.validate hconfig).trans hvalid) hdataset hpoints
      exact Option.isSome_of_eq_some hp

end CourseCharts.Scatter

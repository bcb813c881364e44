/-
  CourseCharts — frames of accepted configurations.

  A configuration is checked before there is anything to draw, and a frame
  before it is shown.  The two checks agree on everything but the offset of
  the axis on the right, which only the second one looks at.

  * `Config.Accepted.measured`: the lengths of a configuration, and of the plot
    in it, are of ordinary size if the settings are;
  * `Dataset.frame_valid`: then there is room for all coordinates;
  * `Dataset.frame_invalid`: without a finite offset, the line of the axis
    cannot be drawn;
  * `accepted_frames_need_offset`: both together, and what follows for a chart.
-/
import CourseCharts.Proofs.Drawing.Axis
import CourseCharts.Proofs.Drawing.Surface
import CourseCharts.Proofs.Number.Magnitude
import CourseCharts.Proofs.Number.TickText
import CourseCharts.Proofs.Scatter.Config
import CourseCharts.Proofs.Scatter.Invariant

namespace CourseCharts

/-- Between minus and plus a billion. -/
def Ordinary (x : Float) : Prop := -1e9 ≤ x ∧ x ≤ 1e9

instance (x : Float) : Decidable (Ordinary x) := inferInstanceAs (Decidable (_ ∧ _))

theorem Ordinary.below {x : Float} (h : Ordinary x) : Double.Below 0 x :=
  .of_le (by decide) (by decide) h.1 h.2

theorem Requirement.nonnegative_of_positive {x : Float}
    (h : positive.holds x = true) : nonnegative.holds x = true := by
  obtain ⟨hfinite, hpos⟩ := Bool.and_eq_true_iff.1 h
  exact Bool.and_eq_true_iff.2 ⟨hfinite, decide_eq_true (Double.le_of_lt (of_decide_eq_true hpos))⟩

namespace Scatter

/-! ## Lengths -/

/-- All lengths among the settings. -/
def Config.lengths {α : Type} (c : Config α) : List α :=
  [c.margins.top, c.margins.right, c.margins.bottom, c.margins.left, c.markerRadius,
    c.yAxisOffset, c.clipPadding, c.captionFontSize, c.tickFontSize, c.titleFontSize]

/-- The places of all markers and ticks. -/
def Projection.positions {α : Type} (p : Projection α) : List α :=
  p.markers.map (·.x) ++ p.markers.map (·.y) ++ p.xTicks.map (·.position)
    ++ p.yTicks.map (·.position)

/-- The magnitudes that the coordinates of a frame are made of. -/
structure Config.Measured (c : Config Float) : Prop where
  left : Double.Below 0 c.plotArea.left
  top : Double.Below 0 c.plotArea.top
  width : Double.Below 18 c.plotArea.width
  height : Double.Below 18 c.plotArea.height
  captionFontSize : Double.Below 0 c.captionFontSize
  tickFontSize : Double.Below 0 c.tickFontSize

/-- A viewport of 32-bit sizes and settings of ordinary size make a plot of ordinary size. -/
theorem Config.Accepted.measured {c : Config Float} (h : c.Accepted)
    (hwidth : c.viewport.width < 2 ^ 32) (hheight : c.viewport.height < 2 ^ 32)
    (hlengths : ∀ x ∈ c.lengths, Scalar.isFinite x = true → Ordinary x) : c.Measured := by
  have hbelow {x : Float} {r : Requirement} (hx : x ∈ c.lengths) (hr : r.holds x = true) :
      Double.Below 0 x := (hlengths x hx (Requirement.finite_of_holds hr)).below
  have hmargin {x : Float}
      (hx : x ∈ [c.margins.top, c.margins.right, c.margins.bottom, c.margins.left]) :
      Double.Below 0 x :=
    hbelow (List.mem_append_left _ hx) (h.margins x hx)
  -- what the margins leave of a side of the viewport
  have hside {n : Nat} {a b : Float} (hn : n < 2 ^ 32) (ha : Double.Below 0 a)
      (hb : Double.Below 0 b) : Double.Below 18 (Scalar.ofNat n - a - b) := by
    have hcount : Double.Below 14 (Scalar.ofNat n) := Double.Below.ofNat (by omega)
    have hrest := hcount.sub (ha.mono (by decide)) (by decide)
    exact hrest.sub (hb.mono (by decide)) (by decide)
  refine ⟨hmargin (x := c.margins.left) (by simp), hmargin (x := c.margins.top) (by simp), ?_, ?_,
    ?_, ?_⟩
  · exact hside hwidth (hmargin (by simp)) (hmargin (by simp))
  · exact hside hheight (hmargin (by simp)) (hmargin (by simp))
  · exact hbelow (by simp [lengths]) h.captionFontSize
  · exact hbelow (by simp [lengths]) h.tickFontSize

namespace Config.Measured

variable {c : Config Float} (h : c.Measured)

include h

theorem right : Double.Below 20 c.plotArea.right :=
  (h.left.mono (by decide)).add h.width (by decide)

theorem bottom : Double.Below 20 c.plotArea.bottom :=
  (h.top.mono (by decide)).add h.height (by decide)

theorem finite : c.plotArea.Finite :=
  ⟨h.left.isFinite, h.top.isFinite, h.right.isFinite, h.bottom.isFinite⟩

end Config.Measured

/-! ## Frames that can be drawn -/

namespace Config.Accepted

variable {c : Config Float} (haccepted : c.Accepted) (h : c.Measured)

include haccepted h

theorem background_valid : (Chrome.background c.plotArea).Valid :=
  Chrome.background_valid h.finite (Requirement.nonnegative_of_positive haccepted.width)
    (Requirement.nonnegative_of_positive haccepted.height)

theorem bottomAxis_valid {ticks : List (AxisTick Float)} (precision : Nat)
    (hticks : ∀ t ∈ ticks, Double.Below 0 t.position) :
    (Chrome.bottomAxis c.plotArea (ticks.map (·.label precision)) c.tickFontSize).Valid := by
  have hbaseline : Double.Below 54 (c.plotArea.bottom + 3.0) :=
    (h.bottom.add (by decide) (by decide)).mono (by decide)
  have hfont : Double.Below 54 (0.71 * c.tickFontSize) :=
    .mul (b := 0) (by decide) h.tickFontSize (by decide)
  refine Chrome.bottomAxis_valid h.finite (List.forall_mem_map.2 ?_)
    (hbaseline.add hfont (by decide)).isFinite haccepted.tickFontSize
  intro t ht
  exact (h.left.add (hticks t ht) (by decide)).isFinite

theorem bottomTitle_valid (title : String) :
    (Chrome.bottomTitle c.plotArea title c.titleFontSize).Valid := by
  have hhalf := h.width.half (by decide)
  refine Chrome.bottomTitle_valid ?_ ?_ haccepted.titleFontSize
  · exact ((h.left.mono (by decide)).add hhalf (by decide)).isFinite
  · exact (h.bottom.add (by decide) (by decide)).isFinite

/-- The axis on the right is the one place that needs the offset. -/
theorem rightAxis_valid (hoffset : Double.Below 0 c.yAxisOffset) {ticks : List (AxisTick Float)}
    (precision : Nat) (hticks : ∀ t ∈ ticks, Double.Below 0 t.position) :
    (Chrome.rightAxis c.plotArea c.yAxisOffset (ticks.map (·.label precision))
      c.tickFontSize).Valid := by
  have hline : Double.Below 22 (c.plotArea.right + c.yAxisOffset) :=
    h.right.add (hoffset.mono (by decide)) (by decide)
  have hend : Double.Below 24 (c.plotArea.right + c.yAxisOffset + 6.0) :=
    hline.add (by decide) (by decide)
  have htext : Double.Below 26 (c.plotArea.right + c.yAxisOffset + 6.0 + 3.0) :=
    hend.add (by decide) (by decide)
  refine Chrome.rightAxis_valid h.finite ?_ (List.forall_mem_map.2 ?_) haccepted.tickFontSize
  · simp only [List.forall_mem_cons]
    exact ⟨hline.isFinite, hend.isFinite, htext.isFinite, by simp⟩
  · intro t ht
    have hplace : Double.Below 2 (c.plotArea.top + t.position) :=
      h.top.add (hticks t ht) (by decide)
    have hfont : Double.Below 54 (0.32 * c.tickFontSize) :=
      .mul (b := 0) (by decide) h.tickFontSize (by decide)
    refine ⟨tickText_isEmpty _ _, hplace.isFinite, ?_⟩
    exact ((hplace.mono (by decide)).add hfont (by decide)).isFinite

theorem rightTitle_valid (title : String) :
    (Chrome.rightTitle c.plotArea 120.0 title c.titleFontSize).Valid := by
  have hpart : Double.Below 72 (c.plotArea.height * 0.6) :=
    h.height.mul (c := 0) (by decide) (by decide)
  refine Chrome.rightTitle_valid ?_ ?_ haccepted.titleFontSize
  · exact (h.right.add (by decide) (by decide)).isFinite
  · exact ((h.top.mono (by decide)).add hpart (by decide)).isFinite

end Config.Accepted

theorem Point.color_valid (p : Point Float) : p.color.validate = .ok () := by
  unfold Point.color
  split <;> rfl

namespace Dataset

variable {c : Config Float} (d : Dataset Float) {p : Projection Float}

theorem chrome_valid (haccepted : c.Accepted) (h : c.Measured)
    (hoffset : Double.Below 0 c.yAxisOffset)
    (hx : ∀ t ∈ p.xTicks, Double.Below 0 t.position)
    (hy : ∀ t ∈ p.yTicks, Double.Below 0 t.position) : (d.chrome c p).Valid :=
  (haccepted.background_valid h).append (haccepted.bottomAxis_valid h p.xPrecision hx)
    |>.append (haccepted.bottomTitle_valid h d.xAxis.title)
    |>.append (haccepted.rightAxis_valid h hoffset p.yPrecision hy)
    |>.append (haccepted.rightTitle_valid h d.yAxis.title)

theorem body_valid (haccepted : c.Accepted) (h : c.Measured) (showOutliers : Bool)
    {ms : List (Marker Float)}
    (hms : ∀ m ∈ ms, Double.Below 0 m.x ∧ Double.Below 0 m.y) :
    (d.body c showOutliers ms).Valid where
  rects := by simp [body]
  circles := by
    unfold body
    dsimp only
    rw [← List.map_uncurry_zip_eq_zipWith, List.forall_mem_map]
    rintro ⟨point, m⟩ hmem
    obtain ⟨hx, hy⟩ := hms m (List.of_mem_zip hmem).2
    refine Circle.validate_eq_ok.2 ⟨?_, haccepted.markerRadius, point.color_valid⟩
    simp only [Function.uncurry, circle, List.forall_mem_cons]
    exact ⟨(h.left.add hx (by decide)).isFinite, (h.top.add hy (by decide)).isFinite, by simp⟩
  labels := by
    intro l hl
    obtain ⟨hl, htext⟩ := List.mem_filter.1 hl
    rw [← List.map_uncurry_zip_eq_zipWith] at hl
    obtain ⟨⟨point, m⟩, hmem, rfl⟩ := List.mem_map.1 hl
    obtain ⟨hx, hy⟩ := hms m (List.of_mem_zip hmem).2
    have hplace : Double.Below 2 (c.plotArea.top + m.y) := h.top.add hy (by decide)
    have hcaption : Double.Below 4 (c.plotArea.top + m.y - c.captionFontSize) :=
      hplace.sub (h.captionFontSize.mono (by decide)) (by decide)
    refine Label.validate_eq_ok.2 ⟨?_, ?_, haccepted.captionFontSize, point.color_valid⟩
    · simpa using htext
    · simp only [Function.uncurry, caption, List.forall_mem_cons]
      exact ⟨(h.left.add hx (by decide)).isFinite, hcaption.isFinite, rfl, by simp⟩

/-- With an offset and markers of ordinary size, the frame can be drawn. -/
theorem frame_valid (haccepted : c.Accepted) (h : c.Measured)
    (hoffset : Double.Below 0 c.yAxisOffset) (showOutliers : Bool)
    (hp : ∀ x ∈ p.positions, Double.Below 0 x) :
    (d.frame c showOutliers p).validate = .ok () := by
  simp only [Projection.positions, List.forall_mem_append, List.forall_mem_map] at hp
  obtain ⟨⟨⟨hmx, hmy⟩, hx⟩, hy⟩ := hp
  exact Frame.validate_eq_ok.2 ⟨haccepted.viewport, d.chrome_valid haccepted h hoffset hx hy,
    d.body_valid haccepted h showOutliers fun m hm => ⟨hmx m hm, hmy m hm⟩⟩

/-- Without a finite offset, the axis on the right is the first thing that cannot be drawn. -/
theorem frame_invalid (haccepted : c.Accepted) (hoffset : c.yAxisOffset.isFinite = false)
    (showOutliers : Bool) (p : Projection Float) :
    (d.frame c showOutliers p).validate
      = .error (.invalidData (.unmet .lineCoordinates .finite)) := by
  have hcases : ∀ l ∈ (d.chrome c p).lines, l.validate = .ok () ∨
      l.validate = .error (.invalidData (.unmet .lineCoordinates .finite)) := by
    simp only [chrome, Chrome.append_lines, Chrome.background, Chrome.bottomTitle,
      Chrome.rightTitle, Chrome.title, List.nil_append, List.append_nil]
    exact List.forall_mem_append.2 ⟨Chrome.bottomAxis_lines, Chrome.rightAxis_lines⟩
  have hend : (c.plotArea.right + c.yAxisOffset).isFinite = false := Double.not_isFinite_add hoffset
  have haxis : (Chrome.thin (c.plotArea.right + c.yAxisOffset) c.plotArea.top
      (c.plotArea.right + c.yAxisOffset) c.plotArea.bottom Chrome.axisColor).validate
      = .error (.invalidData (.unmet .lineCoordinates .finite)) := by
    refine Chrome.thin_error fun h => ?_
    exact absurd (h _ List.mem_cons_self) (Bool.eq_false_iff.1 hend)
  have hlines : (d.chrome c p).lines.forM Line.validate
      = .error (.invalidData (.unmet .lineCoordinates .finite)) := by
    refine forM_eq_error hcases ?_ haxis
    simp [chrome, Chrome.rightAxis]
  simp only [Frame.validate, frame, haccepted.viewport, hlines]
  rfl

end Dataset

/-! ## Charts -/

/-- Data whose frames are all invalid cannot be rendered on a strict surface. -/
theorem Chart.render_refused {α σ : Type} [Scalar α] [Surface σ α] (hstrict : Surface.Strict σ α)
    {c : Chart α σ} {d : Dataset α} {e : ChartError} (hpoints : d.points ≠ [])
    (h : ∀ p, (d.frame c.config c.showOutliers p).validate = .error e) :
    ∃ e, (c.render d).1 = .error e := by
  have hne : d.points.isEmpty = false := by simpa using hpoints
  simp only [render, redraw, reset, hne, Bool.false_eq_true, if_false]
  split
  next e' _ => exact ⟨e', rfl⟩
  next scales p _ => exact ⟨e, hstrict _ _ _ (h p)⟩

/-- **The offset of the axis on the right is not checked.** Let a configuration be accepted.
    If its lengths are of ordinary size, as far as they are finite, the frame of any markers and
    ticks of ordinary size can be drawn exactly if the offset is finite.
    If the offset is not finite, no frame of any data can be drawn, since the line of the axis
    has no finite coordinates; a chart is made all the same, and every attempt to render points
    on it fails, whatever is done with it before. -/
theorem accepted_frames_need_offset {config : Config Float} (hvalid : config.validate = .ok ()) :
    (config.viewport.width < 2 ^ 32 → config.viewport.height < 2 ^ 32 →
      (∀ x ∈ config.lengths, x.isFinite = true → Ordinary x) →
      ∀ (d : Dataset Float) (showOutliers : Bool) (p : Projection Float),
        (∀ x ∈ p.positions, Ordinary x) →
        ((d.frame config showOutliers p).validate = .ok () ↔
          config.yAxisOffset.isFinite = true)) ∧
    (config.yAxisOffset.isFinite = false →
      (∀ (d : Dataset Float) (showOutliers : Bool) (p : Projection Float),
        (d.frame config showOutliers p).validate
          = .error (.invalidData (.unmet .lineCoordinates .finite))) ∧
      ∀ {σ : Type} [Surface σ Float], Surface.Strict σ Float → ∀ surface : σ,
        ∃ c, Chart.make? surface config = .ok c ∧
          ∀ (ops : List (Operation Float)) (d : Dataset Float), d.points ≠ [] →
            ∃ e, ((c.after ops).render d).1 = .error e) := by
  have haccepted := Config.validate_eq_ok.1 hvalid
  constructor
  · intro hwidth hheight hlengths d showOutliers p hp
    constructor
    · intro hframe
      by_contra hoffset
      rw [d.frame_invalid haccepted (Bool.eq_false_iff.2 hoffset)] at hframe
      cases hframe
    · intro hoffset
      have hmeasured := haccepted.measured hwidth hheight hlengths
      have hbelow := (hlengths config.yAxisOffset (by simp [Config.lengths]) hoffset).below
      exact d.frame_valid haccepted hmeasured hbelow showOutliers fun x hx => (hp x hx).below
  · intro hoffset
    refine ⟨fun d showOutliers p => d.frame_invalid haccepted hoffset showOutliers p, ?_⟩
    intro σ _ hstrict surface
    refine ⟨_, Chart.make?_eq_ok.2 ⟨hvalid, rfl⟩, ?_⟩
    intro ops d hpoints
    refine Chart.render_refused (e := .invalidData (.unmet .lineCoordinates .finite)) hstrict
      hpoints fun p => ?_
    rw [Chart.config_after]
    exact d.frame_invalid haccepted hoffset _ p

/-- The default configuration with an offset that is not a number. -/
def Config.noOffset : Config Float := { Config.standard with yAxisOffset := Float.nan }

/-- The default configuration draws a marker and two ticks; without an offset it is accepted and
    refuses every point. -/
theorem accepted_frames_need_offset_nan :
    (let p : Projection Float := ⟨[⟨5.0, 5.0⟩], [⟨1.0, 5.0⟩], [⟨1.0, 5.0⟩], 0, 0⟩
      ∀ d : Dataset Float, (d.frame .standard true p).validate = .ok ()) ∧
    ∃ c, Chart.make? (HeadlessSurface.initial : HeadlessSurface Float) Config.noOffset = .ok c ∧
      ∀ d : Dataset Float, d.points ≠ [] → ∃ e, (c.render d).1 = .error e := by
  have hstandard : (Config.standard : Config Float).validate = .ok () := by rfl
  have hnan : Config.noOffset.validate = .ok () := by rfl
  constructor
  · intro p d
    have hlengths : ∀ x ∈ (Config.standard : Config Float).lengths,
        x.isFinite = true → Ordinary x := by decide +kernel
    have hpositions : ∀ x ∈ p.positions, Ordinary x := by decide +kernel
    exact ((accepted_frames_need_offset hstandard).1 (by decide) (by decide) hlengths d true p
      hpositions).2 rfl
  · obtain ⟨-, hrefused⟩ := (accepted_frames_need_offset hnan).2 rfl
    obtain ⟨c, hc, hrender⟩ := hrefused HeadlessSurface.strict .initial
    exact ⟨c, hc, hrender []⟩

end Scatter

end CourseCharts

/-
  CourseCharts — markers under a zoom.

  * `Scales.zoomed?_eq`: a zoom that moves nothing is no exception, the scales
    are rescaled as under every other zoom;
  * `Scales.marker_under`: a marker moves as the zoom says;
  * `zooming_is_affine`: what exact arithmetic makes of a sequence of zooms, for
    a scale and for the markers of a chart.
-/
import CourseCharts.Proofs.Scale.Zoom
import CourseCharts.Proofs.Scatter.Projection

namespace CourseCharts.Scatter

namespace Scales

/-- The scales under a zoom. -/
def under (s : Scales Rat) (z : Zoom Rat) : Scales Rat := ⟨s.x.under z .x, s.y.under z .y⟩

variable {s : Scales Rat} {z : Zoom Rat}

theorem zoomed?_eq (hx : s.x.Proper) (hy : s.y.Proper) (hz : 0 < z.factor) :
    s.zoomed? z = .ok (s.under z) := by
  unfold zoomed?
  cases hid : z.isIdentity with
  | true =>
    obtain rfl := Zoom.isIdentity_iff.1 hid
    simp [under, hx.under_identity, hy.under_identity]
  | false => simp [under, hx.rescaled?_eq hz, hy.rescaled?_eq hz]

/-- Markers move as the zoom says. -/
theorem marker_under (hx : s.x.Proper) (hy : s.y.Proper) (hz : 0 < z.factor)
    (showOutliers : Bool) (p : Point Rat) :
    (s.under z).marker showOutliers p =
      ⟨z.apply .x (s.marker showOutliers p).x, z.apply .y (s.marker showOutliers p).y⟩ := by
  simp only [marker, under, hx.pixel_under hz, hy.pixel_under hz]

end Scales

/-- Exact numbers always have a place. -/
theorem Projection.ofPoints?_rat (points : List (Point Rat)) (s : Scales Rat)
    (showOutliers : Bool) (xCount yCount : Nat) :
    ∃ p, Projection.ofPoints? points s showOutliers xCount yCount = .ok p ∧
      p.markers = points.map (s.marker showOutliers) := by
  simp only [Projection.ofPoints?, bind_eq_ok, pure_eq_ok, Projection.markers?_eq_ok,
    Projection.ticks?_eq_ok]
  exact ⟨_, ⟨_, ⟨fun _ _ => ⟨rfl, rfl⟩, rfl⟩, _, ⟨fun _ _ => rfl, rfl⟩, _,
    ⟨fun _ _ => rfl, rfl⟩, rfl⟩, rfl⟩

/-- **Zooming in exact arithmetic.** Valid zooms made one after another compose to a valid
    zoom, and its map of an axis is undone by its inverse.
    Every scale with a range that is no point can be rescaled by the composition, and by
    the zooms one after another with the same outcome: the range stays, each value is
    shown where the composition takes its pixel, and both scales lead back to the value.
    For the scales of a chart, a composition that moves nothing is no exception, and each
    marker is where the composition takes the marker of the chart without zoom. -/
theorem zooming_is_affine {zs : List (Zoom Rat)} (hzs : ∀ z ∈ zs, z.validate = .ok ()) :
    let zoom := zs.foldl Zoom.andThen .identity
    zoom.validate = .ok () ∧
    (∀ d p, zoom.invert d (zoom.apply d p) = p ∧ zoom.apply d (zoom.invert d p) = p) ∧
    (∀ domain range s, LinearScale.make? domain range = .ok s → range.1 ≠ range.2 →
      ∀ d, ∃ s', s.rescaled? zoom d = .ok s' ∧
        zs.foldlM (fun s z => s.rescaled? z d) s = .ok s' ∧ s'.range = s.range ∧
        ∀ v, ∃ p, s.toPixel? v = .ok p ∧ s.toValue? p = .ok v ∧
          s'.toPixel? v = .ok (zoom.apply d p) ∧ s'.toValue? (zoom.apply d p) = .ok v) ∧
    (∀ base : Scales Rat, base.x.Proper → base.y.Proper →
      ∃ x y, base.x.rescaled? zoom .x = .ok x ∧ base.y.rescaled? zoom .y = .ok y ∧
        base.zoomed? zoom = .ok ⟨x, y⟩ ∧
        ∀ points showOutliers xCount yCount, ∃ p p',
          Projection.ofPoints? points base showOutliers xCount yCount = .ok p ∧
          Projection.ofPoints? points ⟨x, y⟩ showOutliers xCount yCount = .ok p' ∧
          p'.markers = p.markers.map fun m => ⟨zoom.apply .x m.x, zoom.apply .y m.y⟩) := by
  intro zoom
  have hfactors : ∀ z ∈ zs, 0 < z.factor := fun z hz => Zoom.validate_iff.1 (hzs z hz)
  have hidentity : 0 < (Zoom.identity : Zoom Rat).factor := by simp
  have hzoom : 0 < zoom.factor := Zoom.factor_foldl_pos hfactors hidentity
  refine ⟨Zoom.validate_iff.2 hzoom, fun d p => ?_, fun domain range s hs hrange d => ?_,
    fun base hx hy => ?_⟩
  · exact ⟨Zoom.invert_apply hzoom, Zoom.apply_invert hzoom⟩
  · have hproper := LinearScale.Proper.of_make? hs hrange
    have hunder : (s.under zoom d).Proper := hproper.under hzoom
    have hsteps := hproper.foldlM_rescaled? (d := d) hfactors hidentity
    rw [hproper.under_identity] at hsteps
    refine ⟨_, hproper.rescaled?_eq hzoom, hsteps, rfl, fun v => ⟨s.pixel v, ?_, ?_, ?_, ?_⟩⟩
    · exact LinearScale.toPixel?_rat
    · rw [hproper.toValue?_eq, hproper.valueAt_pixel]
    · rw [LinearScale.toPixel?_rat, hproper.pixel_under hzoom]
    · rw [← hproper.pixel_under hzoom, hunder.toValue?_eq, hunder.valueAt_pixel]
  · refine ⟨_, _, hx.rescaled?_eq hzoom, hy.rescaled?_eq hzoom, base.zoomed?_eq hx hy hzoom, ?_⟩
    intro points showOutliers xCount yCount
    obtain ⟨p, hp, hmarkers⟩ :=
      Projection.ofPoints?_rat points base showOutliers xCount yCount
    obtain ⟨p', hp', hmarkers'⟩ :=
      Projection.ofPoints?_rat points (base.under zoom) showOutliers xCount yCount
    refine ⟨p, p', hp, hp', ?_⟩
    rw [hmarkers, hmarkers', List.map_map]
    exact List.map_congr_left fun q _ => base.marker_under hx hy hzoom showOutliers q

/-- On a range that runs downwards, two zooms that also shift take the pixel 222 of the
    value 40 to 3 · (2 · 222 - 5) + 7. -/
theorem zooming_is_affine_downwards :
    ∃ s s' : LinearScale Rat, LinearScale.make? (0, 100) (370, 0) = .ok s ∧
      [⟨2, 10, -5⟩, ⟨3, 0, 7⟩].foldlM (fun s z => s.rescaled? z .y) s = .ok s' ∧
      s.toPixel? 40 = .ok 222 ∧ s'.toPixel? 40 = .ok 1324 := by
  have hvalid : ∀ z ∈ [(⟨2, 10, -5⟩ : Zoom Rat), ⟨3, 0, 7⟩], z.validate = .ok () := by
    simp [Zoom.validate_iff]
  have hs : LinearScale.make? ((0 : Rat), (100 : Rat)) (370, 0) = .ok ⟨0, 100, 370, 0⟩ :=
    LinearScale.make?_eq_ok.2 ⟨⟨rfl, rfl, rfl⟩, ⟨rfl, rfl⟩, rfl⟩
  obtain ⟨-, -, hscale, -⟩ := zooming_is_affine hvalid
  obtain ⟨s', -, hs', -, hshown⟩ := hscale _ _ _ hs (by norm_num) .y
  obtain ⟨p, hp, -, hp', -⟩ := hshown 40
  have hpixel : (⟨0, 100, 370, 0⟩ : LinearScale Rat).toPixel? 40 = .ok 222 := by
    rw [LinearScale.toPixel?_rat]
    norm_num [LinearScale.pixel]
  obtain rfl : p = 222 := Except.ok.inj (hp.symm.trans hpixel)
  refine ⟨_, s', hs, hs', hpixel, hp'.trans ?_⟩
  norm_num [Zoom.apply, Zoom.andThen, Zoom.identity, Zoom.offset]

end CourseCharts.Scatter

/-
  CourseCharts — the zoom of a chart is regular.

  Only the step of a zoom is validated, never the zoom that it gives together
  with the steps before.  An irregular one gets caught by the scales: it
  leaves no finite pixels to invert, or it takes both ends of an axis to one
  pixel.

  * `LinearScale.factor_of_rescaled?`: what a scale can be rescaled by;
  * `Zoom.Regular.andThen`: two regular zooms compose, if there are scales
    under their composition;
  * `zoom_always_regular`: so the zoom is regular after every run.
-/
import CourseCharts.Proofs.Number.Overflow
import CourseCharts.Proofs.Scatter.ZoomStep

namespace CourseCharts

/-! ## Zooms -/

namespace Zoom

/-- The factor is finite and positive, the shift finite. -/
structure Regular {α : Type} [Scalar α] (z : Zoom α) : Prop where
  finite : Scalar.isFinite z.factor = true
  pos : 0.0 < z.factor
  x : Scalar.isFinite z.x = true
  y : Scalar.isFinite z.y = true

theorem validate_eq_ok {α : Type} [Scalar α] {z : Zoom α} :
    z.validate = .ok () ↔ z.Regular := by
  simp only [validate, bind_eq_ok, Quantity.require_eq_ok, List.forall_mem_cons,
    List.not_mem_nil, IsEmpty.forall_iff, implies_true, and_true, Requirement.holds,
    Bool.and_eq_true, decide_eq_true_eq, exists_const]
  constructor
  · rintro ⟨⟨hfinite, hpos⟩, hx, hy⟩
    exact ⟨hfinite, hpos, hx, hy⟩
  · rintro ⟨hfinite, hpos, hx, hy⟩
    exact ⟨⟨hfinite, hpos⟩, hx, hy⟩

theorem regular_identity : (identity : Zoom Float).Regular := validate_eq_ok.1 rfl

/-- A zoom that moves nothing is regular, whatever the signs of its zeros are. -/
theorem regular_of_isIdentity {z : Zoom Float} (h : z.isIdentity = true) : z.Regular := by
  simp only [isIdentity, Bool.and_eq_true] at h
  obtain ⟨⟨hfactor, hx⟩, hy⟩ := h
  have hzero {t : Float} (ht : (t == 0.0) = true) : t.isFinite = true := by
    obtain ⟨s, hs⟩ := Double.unpack_of_beq_zero ht
    exact congrArg Float.Model.UnpackedFloat.isFinite hs
  have hone := Double.eq_of_beq_one hfactor
  exact ⟨by rw [hone]; rfl, by rw [hone]; exact regular_identity.pos, hzero hx, hzero hy⟩

/-- Nothing overflows if nothing was zoomed before. -/
theorem Regular.identity_andThen {delta : Zoom Float} (h : delta.Regular) :
    (identity.andThen delta).Regular := by
  have hfactor : (identity.andThen delta).factor = delta.factor := Double.mul_one _
  exact ⟨by rw [hfactor]; exact h.finite, by rw [hfactor]; exact h.pos,
    Double.isFinite_mul_zero_add h.finite h.x, Double.isFinite_mul_zero_add h.finite h.y⟩

end Zoom

/-! ## Scales -/

/-- A scale can only be rescaled by a finite factor other than zero and a finite shift. -/
theorem LinearScale.factor_of_rescaled? {s s' : LinearScale Float} {z : Zoom Float}
    {d : Direction} (h : s.rescaled? z d = .ok s') :
    z.factor.isFinite = true ∧ (z.factor == 0.0) = false ∧ (z.offset d).isFinite = true := by
  obtain ⟨hstart, hend, hmake⟩ := rescaled?_eq_ok.1 h
  obtain ⟨⟨hfinite, -, hne⟩, ⟨hrange, -⟩, -⟩ := make?_eq_ok.1 hmake
  have hfactor : z.factor.isFinite = true := by
    by_contra hf
    rw [Bool.not_eq_true] at hf
    -- both ends come from one pixel, so that nothing is left of the domain
    have hpixel : (z.invert d s.rangeStart == z.invert d s.rangeEnd) = true :=
      BEq.trans (Double.div_beq_zero hf hstart) (BEq.symm (Double.div_beq_zero hf hend))
    rcases s.value_same (.inr hpixel) with hvalue | hvalue
    · dsimp only at hne hfinite
      rw [← hvalue, LawfulScalar.beq_self hfinite] at hne
      cases hne
    · exact Bool.eq_false_iff.1 hne hvalue
  exact ⟨hfactor, Double.ne_zero_of_div hstart,
    Double.isFinite_of_sub hrange (Double.isFinite_of_div hfactor hstart)⟩

namespace Zoom

open Scatter in
/-- Two regular zooms compose to a regular one, if there are scales under their composition. -/
theorem Regular.andThen {z delta : Zoom Float} (hz : z.Regular) (hdelta : delta.Regular)
    {b s : Scales Float} (h : b.zoomed? (z.andThen delta) = .ok s) :
    (z.andThen delta).Regular := by
  unfold Scales.zoomed? at h
  split at h
  next hidentity => exact regular_of_isIdentity hidentity
  next =>
    simp only [bind_eq_ok] at h
    obtain ⟨x, hx, y, hy, -⟩ := h
    obtain ⟨hfinite, hne, hshift⟩ := LinearScale.factor_of_rescaled? hx
    obtain ⟨-, -, hshift'⟩ := LinearScale.factor_of_rescaled? hy
    exact ⟨hfinite, Double.mul_pos hdelta.pos hz.pos hfinite hne, hshift, hshift'⟩

end Zoom

namespace Scatter

variable {σ : Type} [Surface σ Float]

/-- Every operation keeps the zoom regular. -/
theorem Step.zoom_regular {c c' : Chart Float σ} {toggles zooms : Bool} (h : c.zoom.Regular)
    (hstep : Step c toggles zooms c') : c'.zoom.Regular := by
  obtain he | he | ⟨delta, base, scales, hdelta, -, hscales, he⟩ := hstep.zoom
  · rw [he]
    exact h
  · rw [he]
    exact Zoom.regular_identity
  · rw [he]
    exact h.andThen (Zoom.validate_eq_ok.1 hdelta) hscales

/-- **The zoom is always regular.** Whatever was done with a chart before, its zoom passes
    validation. A step that would make it irregular, be it irregular itself or because the
    composition overflows or underflows, gives an error and leaves the chart as it was. -/
theorem zoom_always_regular {surface : σ} {config : Config Float} {c : Chart Float σ}
    (hc : Chart.make? surface config = .ok c) (ops : List (Operation Float)) :
    let c' := c.after ops
    c'.zoom.validate = .ok () ∧ c'.zoom.Regular ∧
      ∀ delta : Zoom Float, ¬ (c'.zoom.andThen delta).Regular →
        ∃ e, c'.zoomBy delta = (.error e, c') := by
  intro c'
  have hregular : c'.zoom.Regular := by
    refine Chart.after_induction (P := fun c => c.zoom.Regular) Step.zoom_regular ?_ ops
    rw [(Chart.make?_eq_ok.1 hc).2]
    exact Zoom.regular_identity
  refine ⟨Zoom.validate_eq_ok.2 hregular, hregular, fun delta hdelta => ?_⟩
  cases hv : delta.validate with
  | error e => exact ⟨e, by simp [Chart.zoomBy, hv]⟩
  | ok =>
    have hv' := Zoom.validate_eq_ok.1 hv
    obtain ⟨hblank | ⟨d, base, previous, p, hshows⟩, -⟩ := Chart.consistent_after hc ops
    · refine absurd ?_ hdelta
      rw [hblank.zoom]
      exact hv'.identity_andThen
    · have hduration := (Chart.accepted_after hc ops).zoomDuration
      obtain ⟨e, -, -, he⟩ | ⟨⟨_, _, _⟩, hplan⟩ := hshows.zoomBy_cases hduration delta
      · exact ⟨e, he⟩
      · obtain ⟨_, _, _, _, -, -, -, -, -, hz⟩ := Chart.zoomPlan?_eq_some hplan
        obtain ⟨_, _, _, -, rfl, hscales, -⟩ := Chart.zoomStep?_eq_ok.1 hz
        exact absurd (hregular.andThen hv' hscales) hdelta

theorem Chart.zoom_after_zoomBy (c : Chart Float σ) (d : Dataset Float) (delta : Zoom Float) :
    let zoom := (c.after [.render d, .zoomBy delta]).zoom
    zoom = .identity ∨ zoom = Zoom.identity.andThen delta := by
  have hrendered : (c.render d).2.zoom = .identity := Chart.redraw_zoom _
  have hzoom := (c.render d).2.zoomBy_zoom delta
  rwa [hrendered] at hzoom

/-- Whether a step by `1e-200` is made depends on the ticks after it, but a second one would
    underflow and is refused, and the chart stays as it is.  Between points far apart a step that
    changes nothing is made, and one by the factor zero is refused in the middle of its
    animation. -/
theorem zoom_always_regular_small_steps :
    let step : Zoom Float := ⟨1e-200, 0.0, 0.0⟩
    let flat : Zoom Float := ⟨0.0, 0.0, 0.0⟩
    step.Regular ∧ ∃ c,
      Chart.make? (HeadlessSurface.initial : HeadlessSurface Float) Config.standard = .ok c ∧
      (∀ d, let c' := c.after [.render d, .zoomBy step]
        c'.zoom.Regular ∧ (c'.zoom = .identity ∨ c'.zoom = Zoom.identity.andThen step) ∧
          (c'.zoom = Zoom.identity.andThen step → ∃ e, c'.zoomBy step = (.error e, c'))) ∧
      let c' := c.after [.render .farApart, .zoomBy .identity]
      c'.animation.isSome = true ∧ ∃ e, c'.zoomBy flat = (.error e, c') := by
  intro step flat
  have hc := Chart.make?_standard (HeadlessSurface.initial : HeadlessSurface Float)
  have hunderflow : ¬ ((Zoom.identity.andThen step).andThen step).Regular :=
    fun h => absurd h.pos (by decide +kernel)
  have hregular : step.Regular :=
    ⟨by decide +kernel, by decide +kernel, by decide +kernel, by decide +kernel⟩
  refine ⟨hregular, _, hc, fun d => ⟨?_, ?_, fun h => ?_⟩, by decide +kernel, ?_⟩
  · exact (zoom_always_regular hc _).2.1
  · exact Chart.zoom_after_zoomBy ..
  · exact (zoom_always_regular hc _).2.2 step (h ▸ hunderflow)
  · exact (zoom_always_regular hc [.render .farApart, .zoomBy .identity]).2.2 flat
      fun h => absurd h.pos (by decide +kernel)

end Scatter

end CourseCharts

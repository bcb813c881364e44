/-
  CourseCharts — configurations of a scatter chart that are accepted.

  `Config.validate_eq_ok` lists what is asked of a configuration.
-/
import CourseCharts.Proofs.Checks
import CourseCharts.Scatter.Config

namespace CourseCharts.Scatter.Config

variable {α : Type} [Scalar α]

/-- What is asked of a configuration.  The offset of the axis on the right is not in the list. -/
structure Accepted (c : Config α) : Prop where
  viewport : c.viewport.validate = .ok ()
  margins : ∀ x ∈ [c.margins.top, c.margins.right, c.margins.bottom, c.margins.left],
    Requirement.nonnegative.holds x = true
  width : Requirement.positive.holds c.plotArea.width = true
  height : Requirement.positive.holds c.plotArea.height = true
  markerRadius : Requirement.positive.holds c.markerRadius = true
  captionFontSize : Requirement.positive.holds c.captionFontSize = true
  tickFontSize : Requirement.positive.holds c.tickFontSize = true
  titleFontSize : Requirement.positive.holds c.titleFontSize = true
  zoomDuration : Requirement.nonnegative.holds c.zoomDuration = true
  clipPadding : Requirement.nonnegative.holds c.clipPadding = true
  xTickCount : c.xTickCount ≠ 0
  yTickCount : c.yTickCount ≠ 0

theorem validate_eq_ok {c : Config α} : c.validate = .ok () ↔ c.Accepted := by
  simp only [validate, Margins.validateIn, bind_eq_ok, Flaw.unless_eq_ok,
    Quantity.require_eq_ok, List.mem_singleton, forall_eq, PlotArea.isValid, Bool.and_eq_true,
    bne_iff_ne]
  constructor
  · rintro ⟨_, ⟨_, hviewport, _, htop, _, hright, _, hbottom, _, hleft, hwidth, hheight⟩, _,
      hradius, _, hcaption, _, htick, _, htitle, _, hduration, _, hclip, hx, hy⟩
    exact ⟨hviewport, by simp [htop, hright, hbottom, hleft], hwidth, hheight, hradius,
      hcaption, htick, htitle, hduration, hclip, hx, hy⟩
  · rintro ⟨hviewport, hmargins, hwidth, hheight, hradius, hcaption, htick, htitle, hduration,
      hclip, hx, hy⟩
    simp only [List.forall_mem_cons] at hmargins
    obtain ⟨htop, hright, hbottom, hleft, -⟩ := hmargins
    exact ⟨(), ⟨(), hviewport, (), htop, (), hright, (), hbottom, (), hleft, hwidth, hheight⟩,
      (), hradius, (), hcaption, (), htick, (), htitle, (), hduration, (), hclip, hx, hy⟩

theorem Accepted.plot {c : Config α} (h : c.Accepted) : c.plotArea.isValid = true :=
  Bool.and_eq_true_iff.2 ⟨h.width, h.height⟩

end CourseCharts.Scatter.Config

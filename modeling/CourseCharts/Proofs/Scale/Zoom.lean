/-
  CourseCharts — zooming in exact arithmetic.

  Over the rationals a zoom is an affine map of an axis, and a scale under a
  zoom shows every value where the zoom takes its pixel.

  * `Zoom.apply_andThen` and `Zoom.factor_foldl_pos`: zooms compose;
  * `LinearScale.valueAt` is the inverse of `pixel` on a `Proper` scale;
  * `LinearScale.pixel_under` and `LinearScale.under_andThen`: rescaling is an
    action of the zooms on the scales;
  * `zooming_is_affine`: so it is for all that was zoomed step by step.
-/
import CourseCharts.Proofs.Number.Exact
import CourseCharts.Proofs.Scatter.Projection
import Mathlib.Tactic.FieldSimp
import Mathlib.Tactic.Ring

namespace CourseCharts

/-! ## Zooms -/

namespace Zoom

variable {z w : Zoom Rat} {d : Direction} {p : Rat}

theorem validate_iff : z.validate = .ok () ↔ 0 < z.factor := by
  simp [validate]

@[simp] theorem identity_factor : (identity : Zoom Rat).factor = 1 := Exact.one

@[simp] theorem identity_offset : (identity : Zoom Rat).offset d = 0 := by
  cases d <;> exact Exact.zero

@[simp] theorem andThen_factor : (z.andThen w).factor = w.factor * z.factor := rfl

@[simp] theorem andThen_offset :
    (z.andThen w).offset d = w.factor * z.offset d + w.offset d := by
  cases d <;> rfl

theorem apply_andThen : (z.andThen w).apply d p = w.apply d (z.apply d p) := by
  simp only [apply, andThen_factor, andThen_offset]
  ring

theorem invert_apply (hz : 0 < z.factor) : z.invert d (z.apply d p) = p := by
  unfold invert apply
  field_simp
  ring

theorem apply_invert (hz : 0 < z.factor) : z.apply d (z.invert d p) = p := by
  unfold invert apply
  field_simp
  ring

/-- The inverses compose in the opposite order. -/
theorem invert_andThen (hz : 0 < z.factor) (hw : 0 < w.factor) :
    (z.andThen w).invert d p = z.invert d (w.invert d p) := by
  simp only [invert, andThen_factor, andThen_offset]
  field_simp
  ring

theorem invert_identity : (identity : Zoom Rat).invert d p = p := by
  simp [invert]

/-- A composition of zooms is a zoom. -/
theorem factor_foldl_pos {zs : List (Zoom Rat)} (hzs : ∀ w ∈ zs, 0 < w.factor)
    (hz : 0 < z.factor) : 0 < (zs.foldl andThen z).factor := by
  induction zs generalizing z with
  | nil => exact hz
  | cons w zs ih =>
    rw [List.forall_mem_cons] at hzs
    exact ih hzs.2 (mul_pos hzs.1 hz)

theorem isIdentity_iff : z.isIdentity = true ↔ z = identity := by
  obtain ⟨factor, x, y⟩ := z
  simp [isIdentity, identity, and_assoc]

end Zoom

/-! ## Scales -/

namespace LinearScale

/-- The domain and the range are no points. -/
structure Proper (s : LinearScale Rat) : Prop where
  domain : s.domainStart ≠ s.domainEnd
  range : s.rangeStart ≠ s.rangeEnd

theorem Proper.of_make? {domain range : Rat × Rat} {s : LinearScale Rat}
    (h : make? domain range = .ok s) (hrange : range.1 ≠ range.2) : s.Proper := by
  obtain ⟨⟨-, -, hdomain⟩, -, rfl⟩ := make?_eq_ok.1 h
  exact ⟨by simpa using hdomain, hrange⟩

/-- The value at a pixel. -/
def valueAt (s : LinearScale Rat) (p : Rat) : Rat :=
  s.domainStart + (p - s.rangeStart) / (s.rangeEnd - s.rangeStart)
    * (s.domainEnd - s.domainStart)

/-- The scale under a zoom. -/
def under (s : LinearScale Rat) (z : Zoom Rat) (d : Direction) : LinearScale Rat :=
  ⟨s.valueAt (z.invert d s.rangeStart), s.valueAt (z.invert d s.rangeEnd), s.rangeStart,
    s.rangeEnd⟩

variable {s : LinearScale Rat} {z w : Zoom Rat} {d : Direction}

theorem toPixel?_rat {v : Rat} : s.toPixel? v = .ok (s.pixel v) :=
  toPixel?_eq_ok.2 ⟨rfl, rfl⟩

namespace Proper

theorem domainSpan (h : s.Proper) : s.domainEnd - s.domainStart ≠ 0 :=
  sub_ne_zero.2 h.domain.symm

theorem rangeSpan (h : s.Proper) : s.rangeEnd - s.rangeStart ≠ 0 :=
  sub_ne_zero.2 h.range.symm

theorem toValue?_eq (h : s.Proper) {p : Rat} : s.toValue? p = .ok (s.valueAt p) := by
  have hspan : ((s.rangeEnd - s.rangeStart) == 0.0) = false := by
    simpa [Exact.zero] using h.rangeSpan
  simp only [toValue?, bind_eq_ok, Quantity.require_eq_ok, hspan]
  exact ⟨(), by simp, rfl⟩

theorem valueAt_pixel (h : s.Proper) {v : Rat} : s.valueAt (s.pixel v) = v := by
  have hdomain := h.domainSpan
  have hrange := h.rangeSpan
  unfold valueAt pixel
  field_simp
  ring

theorem pixel_valueAt (h : s.Proper) {p : Rat} : s.pixel (s.valueAt p) = p := by
  have hdomain := h.domainSpan
  have hrange := h.rangeSpan
  unfold valueAt pixel
  field_simp
  ring

/-- A zoom scales the domain in view by its factor. -/
theorem under_domain (h : s.Proper) (hz : 0 < z.factor) :
    (s.under z d).domainEnd - (s.under z d).domainStart
      = (s.domainEnd - s.domainStart) / z.factor := by
  have hrange := h.rangeSpan
  simp only [under, valueAt, Zoom.invert]
  field_simp
  ring

theorem under (h : s.Proper) (hz : 0 < z.factor) : (s.under z d).Proper := by
  have hspan : (s.under z d).domainEnd - (s.under z d).domainStart ≠ 0 := by
    rw [h.under_domain hz]
    exact div_ne_zero h.domainSpan hz.ne'
  exact ⟨(sub_ne_zero.1 hspan).symm, h.range⟩

theorem rescaled?_eq (h : s.Proper) (hz : 0 < z.factor) :
    s.rescaled? z d = .ok (s.under z d) := by
  simp only [rescaled?, bind_eq_ok, h.toValue?_eq, Except.ok.injEq, exists_eq_left']
  exact make?_eq_ok.2 ⟨⟨rfl, rfl, beq_eq_false_iff_ne.2 (h.under hz).domain⟩, ⟨rfl, rfl⟩, rfl⟩

/-- The value at a pixel is the one at the pixel that the zoom takes there. -/
theorem valueAt_under (h : s.Proper) (hz : 0 < z.factor) {p : Rat} :
    (s.under z d).valueAt p = s.valueAt (z.invert d p) := by
  have hrange := h.rangeSpan
  rw [valueAt, h.under_domain hz]
  simp only [LinearScale.under, valueAt, Zoom.invert]
  field_simp
  ring

/-- A scale under a zoom shows a value where the zoom takes its pixel. -/
theorem pixel_under (h : s.Proper) (hz : 0 < z.factor) {v : Rat} :
    (s.under z d).pixel v = z.apply d (s.pixel v) := by
  have hvalue : v = (s.under z d).valueAt (z.apply d (s.pixel v)) := by
    rw [h.valueAt_under hz, Zoom.invert_apply hz, h.valueAt_pixel]
  conv_lhs => rw [hvalue]
  exact (h.under hz).pixel_valueAt

theorem under_identity (h : s.Proper) : s.under .identity d = s := by
  have hrange := h.rangeSpan
  obtain ⟨domainStart, domainEnd, rangeStart, rangeEnd⟩ := s
  simp [LinearScale.under, Zoom.invert_identity, valueAt, hrange]

theorem under_andThen (h : s.Proper) (hz : 0 < z.factor) (hw : 0 < w.factor) :
    (s.under z d).under w d = s.under (z.andThen w) d := by
  have hvalue (p : Rat) :
      (s.under z d).valueAt (w.invert d p) = s.valueAt ((z.andThen w).invert d p) := by
    rw [h.valueAt_under hz, Zoom.invert_andThen hz hw]
  unfold LinearScale.under at hvalue ⊢
  rw [← hvalue, ← hvalue]

/-- Rescaling step by step is rescaling by the composition. -/
theorem foldlM_rescaled? (h : s.Proper) {zs : List (Zoom Rat)} (hzs : ∀ w ∈ zs, 0 < w.factor)
    (hz : 0 < z.factor) :
    zs.foldlM (fun s w => s.rescaled? w d) (s.under z d)
      = .ok (s.under (zs.foldl Zoom.andThen z) d) := by
  induction zs generalizing z with
  | nil => rfl
  | cons w zs ih =>
    rw [List.forall_mem_cons] at hzs
    obtain ⟨hw, hzs⟩ := hzs
    rw [List.foldlM_cons, (h.under hz).rescaled?_eq hw, h.under_andThen hz hw]
    exact ih hzs (mul_pos hw hz)

end Proper

end LinearScale
end CourseCharts

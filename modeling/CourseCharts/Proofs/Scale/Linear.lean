/-
  CourseCharts — where a scale puts a value.

  * `LinearScale.pixel` is the pixel of any value; `toPixel?` gives it for the
    finite ones;
  * `LinearScale.value` is the value at any pixel, and `toValue?` likewise;
  * `pixel_same` and `value_same`: numbers that compare equal go to the same
    place.
-/
import CourseCharts.Proofs.Checks
import CourseCharts.Proofs.Number.Lawful
import CourseCharts.Scale.Linear

namespace CourseCharts.LinearScale

variable {α : Type} [Scalar α]

/-- The pixel of a value, be it finite or not. -/
def pixel (s : LinearScale α) (value : α) : α :=
  s.rangeStart + (value - s.domainStart) / (s.domainEnd - s.domainStart)
    * (s.rangeEnd - s.rangeStart)

theorem toPixel?_eq_ok {s : LinearScale α} {value p : α} :
    s.toPixel? value = .ok p ↔ Scalar.isFinite value = true ∧ p = s.pixel value := by
  simp only [toPixel?, bind_eq_ok, pure_eq_ok, Quantity.require_eq_ok, List.mem_singleton,
    forall_eq, Requirement.finite_holds, exists_and_left, exists_const]
  exact and_congr_right fun _ => eq_comm

theorem pixel_same [LawfulScalar α] (s : LinearScale α) {v w : α} (h : Scalar.Same v w) :
    Scalar.Same (s.pixel v) (s.pixel w) := by
  have hd := LawfulScalar.same_sub h (Scalar.Same.refl s.domainStart)
  have ht := LawfulScalar.same_div_left (s.domainEnd - s.domainStart) hd
  have hp := LawfulScalar.same_mul_left (s.rangeEnd - s.rangeStart) ht
  exact LawfulScalar.same_add (Scalar.Same.refl _) hp

/-- The value at a pixel, be it finite or not. -/
def value (s : LinearScale α) (pixel : α) : α :=
  if s.rangeEnd - s.rangeStart == 0.0 then s.domainStart
  else s.domainStart + (pixel - s.rangeStart) / (s.rangeEnd - s.rangeStart)
    * (s.domainEnd - s.domainStart)

theorem toValue?_eq_ok {s : LinearScale α} {pixel v : α} :
    s.toValue? pixel = .ok v ↔ Scalar.isFinite pixel = true ∧ v = s.value pixel := by
  simp only [toValue?, value, bind_eq_ok, Quantity.require_eq_ok, List.mem_singleton, forall_eq,
    Requirement.finite_holds, exists_and_left, exists_const]
  refine and_congr_right fun _ => ?_
  split
  next => exact pure_eq_ok.trans eq_comm
  next => exact pure_eq_ok.trans eq_comm

theorem value_same [LawfulScalar α] (s : LinearScale α) {p q : α} (h : Scalar.Same p q) :
    Scalar.Same (s.value p) (s.value q) := by
  unfold value
  split
  next => exact .refl _
  next =>
    have hd := LawfulScalar.same_sub h (Scalar.Same.refl s.rangeStart)
    have ht := LawfulScalar.same_div_left (s.rangeEnd - s.rangeStart) hd
    have hv := LawfulScalar.same_mul_left (s.domainEnd - s.domainStart) ht
    exact LawfulScalar.same_add (Scalar.Same.refl _) hv

theorem make?_eq_ok {domain range : α × α} {s : LinearScale α} :
    make? domain range = .ok s ↔
      (Scalar.isFinite domain.1 = true ∧ Scalar.isFinite domain.2 = true ∧
        (domain.1 == domain.2) = false) ∧
      (Scalar.isFinite range.1 = true ∧ Scalar.isFinite range.2 = true) ∧
      s = ⟨domain.1, domain.2, range.1, range.2⟩ := by
  simp only [make?, bind_eq_ok, pure_eq_ok, Flaw.unless_eq_ok, Quantity.require_eq_ok,
    Bool.and_eq_true, Bool.not_eq_true', List.mem_cons, List.not_mem_nil, or_false,
    forall_eq_or_imp, forall_eq, Requirement.finite_holds, exists_and_left, exists_const,
    and_assoc]
  refine and_congr_right fun _ => and_congr_right fun _ => and_congr_right fun _ =>
    and_congr_right fun _ => and_congr_right fun _ => eq_comm

theorem rescaled?_eq_ok {s s' : LinearScale α} {z : Zoom α} {d : Direction} :
    s.rescaled? z d = .ok s' ↔ Scalar.isFinite (z.invert d s.rangeStart) = true ∧
      Scalar.isFinite (z.invert d s.rangeEnd) = true ∧
      make? (s.value (z.invert d s.rangeStart), s.value (z.invert d s.rangeEnd)) s.range
        = .ok s' := by
  simp only [rescaled?, bind_eq_ok, toValue?_eq_ok]
  constructor
  · rintro ⟨_, ⟨hstart, rfl⟩, _, ⟨hend, rfl⟩, hmake⟩
    exact ⟨hstart, hend, hmake⟩
  · rintro ⟨hstart, hend, hmake⟩
    exact ⟨_, ⟨hstart, rfl⟩, _, ⟨hend, rfl⟩, hmake⟩

end CourseCharts.LinearScale

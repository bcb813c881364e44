/-
  CourseCharts — axes that can be drawn.

  The parts around the data can be drawn if their coordinates are finite and
  the sizes positive, whatever the ticks.

  * `Chrome.Inked`: there are colors and lines to draw them with;
  * `Chrome.bottomAxis_valid` and the like: what each part asks for;
  * `Color.validate_rat` and the like: in exact arithmetic every number is
    finite, and what is left of a check is about sizes, colors and texts.
-/
import CourseCharts.Drawing.Axis
import CourseCharts.Proofs.Drawing.Frame
import CourseCharts.Proofs.Number.Exact
import Mathlib.Algebra.Order.Field.Basic

namespace CourseCharts

/-! ## Shapes -/

theorem Color.validate_rat {c : Color Rat} :
    c.validate = .ok () ↔ ∀ x ∈ [c.red, c.green, c.blue, c.alpha], 0 ≤ x ∧ x ≤ 1 := by
  simp only [Color.validate_eq_ok, Requirement.unitInterval_rat]

theorem Rect.validate_rat {r : Rect Rat} :
    r.validate = .ok () ↔ 0 ≤ r.width ∧ 0 ≤ r.height ∧ r.color.validate = .ok () := by
  simp [Rect.validate_eq_ok, and_assoc]

theorem Label.validate_rat {l : Label Rat} :
    l.validate = .ok () ↔ l.text.isEmpty = false ∧ 0 < l.fontSize ∧
      l.color.validate = .ok () := by
  simp [Label.validate_eq_ok]

/-! ## Colors -/

theorem Color.rgb_valid {red green blue : Rat} (h : ∀ x ∈ [red, green, blue], 0 ≤ x ∧ x ≤ 1) :
    (Color.rgb red green blue).validate = .ok () := by
  rw [Color.validate_rat]
  simp only [List.mem_cons, List.not_mem_nil, or_false, forall_eq_or_imp, forall_eq, rgb,
    Exact.one] at h ⊢
  exact ⟨h.1, h.2.1, h.2.2, zero_le_one, le_rfl⟩

theorem Color.black_valid : (Color.black : Color Rat).validate = .ok () :=
  Color.rgb_valid (by simp [Exact.zero])

/-- Bytes are channels. -/
theorem Color.rgb8_valid {red green blue : Nat} (h : ∀ n ∈ [red, green, blue], n ≤ 255) :
    (Color.rgb8 red green blue : Color Rat).validate = .ok () := by
  have hchannel : ∀ n ≤ 255, 0 ≤ (Scalar.ofNat n / 255.0 : Rat) ∧
      (Scalar.ofNat n / 255.0 : Rat) ≤ 1 := by
    intro n hn
    have hcast : (n : Rat) ≤ 255 := by exact_mod_cast hn
    rw [Scalar.ofNat_rat, show (255.0 : Rat) = 255 by norm_num, div_le_one (by norm_num)]
    exact ⟨by positivity, hcast⟩
  simp only [List.mem_cons, List.not_mem_nil, or_false, forall_eq_or_imp, forall_eq] at h
  refine Color.rgb_valid ?_
  simp only [List.mem_cons, List.not_mem_nil, or_false, forall_eq_or_imp, forall_eq]
  exact ⟨hchannel _ h.1, hchannel _ h.2.1, hchannel _ h.2.2⟩

/-! ## Parts -/

namespace Chrome

/-- The colors, the lines and the rotations of axes can be drawn. -/
class Inked (α : Type) [Scalar α] : Prop where
  axis : (axisColor : Color α).validate = .ok ()
  grid : (gridColor : Color α).validate = .ok ()
  plot : (plotColor : Color α).validate = .ok ()
  stroke : Requirement.positive.holds (1.0 : α) = true
  level : Scalar.isFinite (0.0 : α) = true
  downwards : Scalar.isFinite (90.0 : α) = true

instance : Inked Rat where
  axis := Color.black_valid
  grid := by
    rw [Color.validate_rat]
    norm_num [gridColor]
  plot := Color.rgb_valid (by norm_num)
  stroke := by norm_num
  level := rfl
  downwards := rfl

instance : Inked Float where
  axis := rfl
  grid := rfl
  plot := rfl
  stroke := rfl
  level := rfl
  downwards := rfl

end Chrome

/-- The edges of a plot are finite. -/
structure PlotArea.Finite {α : Type} [Scalar α] (plot : PlotArea α) : Prop where
  left : Scalar.isFinite plot.left = true
  top : Scalar.isFinite plot.top = true
  right : Scalar.isFinite plot.right = true
  bottom : Scalar.isFinite plot.bottom = true

theorem PlotArea.finite_rat (plot : PlotArea Rat) : plot.Finite := ⟨rfl, rfl, rfl, rfl⟩

namespace Chrome

variable {α : Type} [Scalar α] [Inked α] {plot : PlotArea α} {ticks : List (TickLabel α)}
  {fontSize : α}

theorem thin_valid {x1 y1 x2 y2 : α} {color : Color α} (hcolor : color.validate = .ok ())
    (h : ∀ x ∈ [x1, y1, x2, y2], Scalar.isFinite x = true) :
    (thin x1 y1 x2 y2 color).validate = .ok () :=
  Line.validate_eq_ok.2 ⟨h, Inked.stroke, hcolor⟩

omit [Inked α] in
theorem thin_error {x1 y1 x2 y2 : α} {color : Color α}
    (h : ¬ ∀ x ∈ [x1, y1, x2, y2], Scalar.isFinite x = true) :
    (thin x1 y1 x2 y2 color).validate
      = .error (.invalidData (.unmet .lineCoordinates .finite)) := by
  simp only [← Requirement.finite_holds] at h
  rw [Line.validate]
  have hcheck := Quantity.require_eq_error (q := .lineCoordinates) h
  exact congrArg (· >>= _) hcheck

/-- The coordinates of a line are all that can be wrong. -/
theorem thin_cases {color : Color α} (hcolor : color.validate = .ok ()) (x1 y1 x2 y2 : α) :
    (thin x1 y1 x2 y2 color).validate = .ok () ∨
      (thin x1 y1 x2 y2 color).validate
        = .error (.invalidData (.unmet .lineCoordinates .finite)) := by
  by_cases h : ∀ x ∈ [x1, y1, x2, y2], Scalar.isFinite x = true
  · exact .inl (thin_valid hcolor h)
  · exact .inr (thin_error h)

theorem level_valid {text : String} {x y : α} {align : Alignment}
    (htext : text.isEmpty = false) (hx : Scalar.isFinite x = true)
    (hy : Scalar.isFinite y = true) (hfont : Requirement.positive.holds fontSize = true) :
    (level text x y fontSize align).validate = .ok () :=
  Label.validate_eq_ok.2 ⟨htext, by simp [level, hx, hy, Inked.level], hfont, Inked.axis⟩

theorem background_valid (hplot : plot.Finite)
    (hwidth : Requirement.nonnegative.holds plot.width = true)
    (hheight : Requirement.nonnegative.holds plot.height = true) : (background plot).Valid where
  lines := by simp [background]
  rects := List.forall_mem_singleton.2 (Rect.validate_eq_ok.2
    ⟨by simp [hplot.left, hplot.top], by simp [hwidth, hheight], Inked.plot⟩)
  labels := by simp [background]

theorem bottomAxis_valid (hplot : plot.Finite)
    (hticks : ∀ t ∈ ticks, Scalar.isFinite (plot.left + t.position) = true)
    (hbaseline : Scalar.isFinite (plot.bottom + 3.0 + 0.71 * fontSize) = true)
    (hfont : Requirement.positive.holds fontSize = true) :
    (bottomAxis plot ticks fontSize).Valid where
  lines := by
    refine List.forall_mem_cons.2 ⟨thin_valid Inked.axis ?_, List.forall_mem_map.2 fun t ht => ?_⟩
    · simp [hplot.left, hplot.bottom, hplot.right]
    · have hx := hticks t (List.mem_filter.1 ht).1
      exact thin_valid Inked.grid (by simp [hx, hplot.top, hplot.bottom])
  rects := by simp [bottomAxis]
  labels := List.forall_mem_map.2 fun t ht => by
    obtain ⟨ht, htext⟩ := List.mem_filter.1 ht
    have hx := hticks t (List.mem_filter.1 ht).1
    exact level_valid (Bool.not_eq_true' _ ▸ htext) hx hbaseline hfont

/-- What can be wrong with the lines of the axis at the bottom. -/
theorem bottomAxis_lines : ∀ l ∈ (bottomAxis plot ticks fontSize).lines,
    l.validate = .ok () ∨ l.validate = .error (.invalidData (.unmet .lineCoordinates .finite)) :=
  List.forall_mem_cons.2 ⟨thin_cases Inked.axis _ _ _ _,
    List.forall_mem_map.2 fun _ _ => thin_cases Inked.grid _ _ _ _⟩

/-- What can be wrong with the lines of the axis on the right. -/
theorem rightAxis_lines {offset : α} : ∀ l ∈ (rightAxis plot offset ticks fontSize).lines,
    l.validate = .ok () ∨ l.validate = .error (.invalidData (.unmet .lineCoordinates .finite)) :=
  List.forall_mem_cons.2 ⟨thin_cases Inked.axis _ _ _ _,
    List.forall_mem_map.2 fun _ _ => thin_cases Inked.axis _ _ _ _⟩

theorem rightAxis_valid {offset : α} (hplot : plot.Finite)
    (hx : ∀ x ∈ [plot.right + offset, plot.right + offset + 6.0, plot.right + offset + 6.0 + 3.0],
      Scalar.isFinite x = true)
    (hticks : ∀ t ∈ ticks, t.text.isEmpty = false ∧
      Scalar.isFinite (plot.top + t.position) = true ∧
      Scalar.isFinite (plot.top + t.position + 0.32 * fontSize) = true)
    (hfont : Requirement.positive.holds fontSize = true) :
    (rightAxis plot offset ticks fontSize).Valid where
  lines := by
    simp only [List.forall_mem_cons] at hx
    obtain ⟨haxis, hend, -⟩ := hx
    refine List.forall_mem_cons.2 ⟨thin_valid Inked.axis ?_, List.forall_mem_map.2 fun t ht => ?_⟩
    · simp [haxis, hplot.top, hplot.bottom]
    · obtain ⟨-, hy, -⟩ := hticks t (List.mem_filter.1 ht).1
      exact thin_valid Inked.axis (by simp [haxis, hend, hy])
  rects := by simp [rightAxis]
  labels := List.forall_mem_map.2 fun t ht => by
    obtain ⟨htext, -, hy⟩ := hticks t (List.mem_filter.1 ht).1
    exact level_valid htext (hx _ (by simp)) hy hfont

omit [Inked α] in
/-- A title has to be drawn only if it has a text. -/
theorem title_valid {l : Label α} (h : l.text.isEmpty = false → l.validate = .ok ()) :
    (title l).Valid where
  lines := by simp [title]
  rects := by simp [title]
  labels := by
    unfold title
    dsimp only
    split
    next => simp
    next htext => exact List.forall_mem_singleton.2 (h (Bool.eq_false_of_not_eq_true htext))

theorem bottomTitle_valid {text : String}
    (hx : Scalar.isFinite (plot.left + plot.width / 2.0) = true)
    (hy : Scalar.isFinite (plot.bottom + 40.0) = true)
    (hfont : Requirement.positive.holds fontSize = true) :
    (bottomTitle plot text fontSize).Valid :=
  title_valid fun htext => level_valid htext hx hy hfont

theorem rightTitle_valid {offset : α} {text : String}
    (hx : Scalar.isFinite (plot.right + offset) = true)
    (hy : Scalar.isFinite (plot.top + plot.height * 0.6) = true)
    (hfont : Requirement.positive.holds fontSize = true) :
    (rightTitle plot offset text fontSize).Valid :=
  title_valid fun htext => Label.validate_eq_ok.2
    ⟨htext, by simp [level, hx, hy, Inked.downwards], hfont, Inked.axis⟩

end Chrome

end CourseCharts

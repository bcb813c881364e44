/-
  CourseCharts — what the frame of overview records shows.

  With one entity for every record, the frame has three bars and three counts
  for every record, record by record and in the order of the categories.

  * `Picture.getElem?_rects` and `Picture.getElem?_labels`: the bar and the count
    of a record and a category;
  * `Picture.frame_valid`: in exact arithmetic, the frame of bars that fit can be
    drawn.
-/
import CourseCharts.Overview.Picture
import CourseCharts.Proofs.Drawing.Axis
import CourseCharts.Proofs.Overview.Bars

namespace CourseCharts.Overview

/-! ## The order of the categories -/

section
variable {β : Type}

/-- An element of a list of groups of one size. -/
theorem getElem?_flatten {n : Nat} {ls : List (List β)} (h : ∀ l ∈ ls, l.length = n) {i j : Nat}
    {l : List β} (hl : ls[i]? = some l) (hj : j < n) : ls.flatten[n * i + j]? = l[j]? := by
  induction ls generalizing i with
  | nil => cases hl
  | cons l' ls ih =>
    rw [List.forall_mem_cons] at h
    rw [List.flatten_cons]
    cases i with
    | zero =>
      cases hl
      rw [Nat.mul_zero, Nat.zero_add, List.getElem?_append_left (h.1.symm ▸ hj)]
    | succ i =>
      have hindex : n * (i + 1) + j = l'.length + (n * i + j) := by
        rw [h.1, Nat.mul_succ]
        omega
      rw [hindex, List.getElem?_append_right (Nat.le_add_right _ _), Nat.add_sub_cancel_left]
      exact ih h.2 hl

theorem length_flatten {n : Nat} {ls : List (List β)} (h : ∀ l ∈ ls, l.length = n) :
    ls.flatten.length = n * ls.length := by
  induction ls with
  | nil => rfl
  | cons l ls ih =>
    rw [List.forall_mem_cons] at h
    rw [List.flatten_cons, List.length_append, ih h.2, h.1, List.length_cons, Nat.mul_succ,
      Nat.add_comm]

theorem Category.getElem?_map_all (f : Category → β) (k : Category) :
    (Category.all.map f)[k.index]? = some (f k) := by
  cases k <;> rfl

end

/-! ## Something for every bar -/

section
variable {α β : Type}

/-- Something for every record and category, in their order. -/
def eachBar (f : Datum → EntityGeometry α → Category → β) (data : List Datum)
    (es : List (EntityGeometry α)) : List β :=
  (List.zipWith (fun d e => Category.all.map (f d e)) data es).flatten

variable {f : Datum → EntityGeometry α → Category → β} {data : List Datum}
  {es : List (EntityGeometry α)}

/-- Every record has a group of three. -/
theorem length_of_mem_groups :
    ∀ l ∈ List.zipWith (fun d e => Category.all.map (f d e)) data es, l.length = 3 := by
  rw [← List.map_uncurry_zip_eq_zipWith, List.forall_mem_map]
  exact fun _ _ => rfl

theorem length_eachBar (h : es.length = data.length) :
    (eachBar f data es).length = 3 * data.length := by
  rw [eachBar, length_flatten length_of_mem_groups, List.length_zipWith, h, Nat.min_self]

theorem getElem?_eachBar {i : Nat} {d : Datum} {e : EntityGeometry α} (hd : data[i]? = some d)
    (he : es[i]? = some e) (k : Category) :
    (eachBar f data es)[3 * i + k.index]? = some (f d e k) := by
  have hgroup : (List.zipWith (fun d e => Category.all.map (f d e)) data es)[i]?
      = some (Category.all.map (f d e)) :=
    List.getElem?_zipWith_eq_some.2 ⟨d, e, hd, he, rfl⟩
  rw [eachBar, getElem?_flatten length_of_mem_groups hgroup k.index_lt,
    Category.getElem?_map_all]

theorem forall_mem_eachBar {P : β → Prop} (h : ∀ d, ∀ e ∈ es, ∀ k, P (f d e k)) :
    ∀ x ∈ eachBar f data es, P x := by
  intro x hx
  obtain ⟨group, hgroup, hx⟩ := List.mem_flatten.1 hx
  rw [← List.map_uncurry_zip_eq_zipWith] at hgroup
  obtain ⟨⟨d, e⟩, hde, rfl⟩ := List.mem_map.1 hgroup
  obtain ⟨k, -, rfl⟩ := List.mem_map.1 hx
  exact h d e (List.of_mem_zip hde).2 k

end

/-! ## Frames -/

namespace Picture

section
variable {α : Type} [Scalar α] (p : Picture α) (c : Config α) (es : List (EntityGeometry α))

theorem rects_body :
    (p.body c es).rects = eachBar (fun d e k => p.rect c d k (e.bars.get k)) p.data es := rfl

theorem labels_body :
    (p.body c es).labels = eachBar (fun d e k => label c d k (e.labels.get k)) p.data es := rfl

end

end Picture

/-! ## Frames that can be drawn -/

/-- A configuration whose frames have room for the bars, and texts of some size. -/
structure Config.Drawable (c : Config Rat) : Prop where
  viewport : c.viewport.validate = .ok ()
  width : 0 < c.plotArea.width
  height : 0 < c.plotArea.height
  labelFontSize : 0 < c.labelFontSize
  tickFontSize : 0 < c.tickFontSize
  titleFontSize : 0 < c.titleFontSize
  legendFontSize : 0 < c.legendFontSize

theorem Config.drawable_of_validate {c : Config Rat} (h : c.validate = .ok ()) : c.Drawable := by
  simp only [Config.validate, Margins.validateIn, bind_eq_ok, Flaw.unless_eq_ok,
    Quantity.require_eq_ok, List.mem_singleton, forall_eq, PlotArea.isValid, Bool.and_eq_true,
    Requirement.positive_rat] at h
  obtain ⟨_, ⟨_, hviewport, _, -, _, -, _, -, _, -, hwidth, hheight⟩, _, -, _, -, _, hlabel, _,
    htick, _, htitle, _, hlegend, -⟩ := h
  exact ⟨hviewport, hwidth, hheight, hlabel, htick, htitle, hlegend⟩

theorem Category.color_valid (k : Category) : (k.color : Color Rat).validate = .ok () := by
  cases k <;> exact Color.rgb8_valid (by decide)

theorem Category.title_isEmpty (k : Category) : k.title.isEmpty = false := by
  cases k <;> decide

variable {c : Config Rat}

theorem legend_valid (hfont : 0 < c.legendFontSize) : (legend c).Valid where
  lines := by simp [legend]
  rects := List.forall_mem_map.2 fun k _ =>
    Rect.validate_rat.2 ⟨by norm_num, by norm_num, k.color_valid⟩
  labels := List.forall_mem_map.2 fun k _ =>
    Label.validate_rat.2 ⟨k.title_isEmpty, hfont, Color.black_valid⟩

namespace Picture

variable (p : Picture Rat)

theorem chrome_valid (hc : c.Drawable) : (p.chrome c).Valid := by
  have hplot := c.plotArea.finite_rat
  have hbackground := Chrome.background_valid hplot (Requirement.nonnegative_rat.2 hc.width.le)
    (Requirement.nonnegative_rat.2 hc.height.le)
  have haxis : (Chrome.bottomAxis c.plotArea (p.bandCenters.map fun (key, x) => ⟨x, key⟩)
      c.tickFontSize).Valid :=
    Chrome.bottomAxis_valid hplot (fun _ _ => rfl) rfl (Requirement.positive_rat.2 hc.tickFontSize)
  have htitle : (Chrome.bottomTitle c.plotArea p.grouping.title c.titleFontSize).Valid :=
    Chrome.bottomTitle_valid rfl rfl (Requirement.positive_rat.2 hc.titleFontSize)
  exact ((hbackground.append haxis).append htitle).append (legend_valid hc.legendFontSize)

theorem label_valid (hfont : 0 < c.labelFontSize) (d : Datum) (k : Category)
    (a : LabelAnchor Rat) : (label c d k a).validate = .ok () :=
  Label.validate_rat.2 ⟨by simp [label], hfont, Color.rgb_valid (by norm_num)⟩

/-- The rectangle of a bar that fits lies between the top and the bottom of the plot. -/
theorem rect_within {b : Bar Rat} (h : b.Fits c.plotArea.height) (d : Datum) (k : Category) :
    c.plotArea.top ≤ (p.rect c d k b).y ∧
      (p.rect c d k b).y + (p.rect c d k b).height ≤ c.plotArea.top + c.plotArea.height := by
  refine ⟨le_add_of_nonneg_right h.nonneg_y, ?_⟩
  calc (p.rect c d k b).y + (p.rect c d k b).height
      = c.plotArea.top + (b.y + b.height) := add_assoc _ _ _
    _ ≤ c.plotArea.top + c.plotArea.height := by linarith only [h.le_height]

/-- The count at the anchor of a bar is above the middle of its rectangle. -/
theorem label_above (b : Bar Rat) (gap : Rat) (d : Datum) (k : Category) :
    (label c d k (b.anchor gap)).x = (p.rect c d k b).x + (p.rect c d k b).width / 2 ∧
      (label c d k (b.anchor gap)).y = (p.rect c d k b).y - gap := by
  have htwo : (2.0 : Rat) = 2 := by norm_num
  constructor
  · simp only [label, rect, Bar.anchor, Bar.centerX, htwo]
    ring
  · simp only [label, rect, Bar.anchor]
    ring

variable {es : List (EntityGeometry Rat)} {height gap : Rat}

theorem body_valid (hc : c.Drawable) (hes : ∀ e ∈ es, e.Fits height gap) :
    (p.body c es).Valid where
  rects := forall_mem_eachBar fun _ e he k => Rect.validate_rat.2
    ⟨((hes e he).bars k).nonneg_width, ((hes e he).bars k).nonneg_height, k.color_valid⟩
  circles := by simp [body]
  labels := forall_mem_eachBar fun d e _ k => label_valid hc.labelFontSize d k (e.labels.get k)

/-- The frame of bars that fit can be drawn. -/
theorem frame_valid (hc : c.Drawable) (hes : ∀ e ∈ es, e.Fits height gap) :
    (p.frame c es).validate = .ok () :=
  Frame.validate_eq_ok.2 ⟨hc.viewport, p.chrome_valid hc, p.body_valid hc hes⟩

end Picture

end CourseCharts.Overview

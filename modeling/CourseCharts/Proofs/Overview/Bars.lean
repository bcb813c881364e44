/-
  CourseCharts — where the bars are.

  In exact arithmetic a bar has a size and stays in the plot, and its count
  stands above it, in a layout and on any way between two layouts.

  * `EntityGeometry.Fits` says so of the bars of a record;
  * `Layout.geometry?_fits`: the records fit into their own layout, since no
    count is above the greatest one;
  * `EntityGeometry.Fits.blend` and `fits_current`: so they do at any
    moment of an animation from and to bars that fit, as these sets are convex.
-/
import CourseCharts.Proofs.Motion
import CourseCharts.Proofs.Overview.Layout

namespace CourseCharts.Overview

/-! ## Bars that fit -/

/-- The bar has a size, and lies in a plot of the height. -/
structure Bar.Fits (b : Bar Rat) (height : Rat) : Prop where
  nonneg_width : 0 ≤ b.width
  nonneg_height : 0 ≤ b.height
  nonneg_y : 0 ≤ b.y
  le_height : b.y + b.height ≤ height

/-- The bars fit into the height, and the counts stand `gap` above them. -/
structure EntityGeometry.Fits (e : EntityGeometry Rat) (height gap : Rat) : Prop where
  bars : ∀ k, (e.bars.get k).Fits height
  labels : ∀ k, e.labels.get k = (e.bars.get k).anchor gap

section
variable {height gap t : Rat}

/-- Each bound of a bar that fits holds on the way between two such bars. -/
theorem Bar.Fits.blend {a b : Bar Rat} (ha : a.Fits height) (hb : b.Fits height)
    (ht : t ∈ Set.Icc (0 : Rat) 1) : (CourseCharts.blend a b t).Fits height := by
  refine ⟨le_blend ha.nonneg_width hb.nonneg_width ht,
    le_blend ha.nonneg_height hb.nonneg_height ht, le_blend ha.nonneg_y hb.nonneg_y ht, ?_⟩
  calc (CourseCharts.blend a b t).y + (CourseCharts.blend a b t).height
      = CourseCharts.blend (a.y + a.height) (b.y + b.height) t := blend_add
    _ ≤ height := blend_le ha.le_height hb.le_height ht

/-- The place of a count depends on its bar by an affine map. -/
theorem Bar.anchor_blend (a b : Bar Rat) :
    (CourseCharts.blend a b t).anchor gap
      = CourseCharts.blend (a.anchor gap) (b.anchor gap) t := by
  have hx (n : Rat) : a.x + (b.x - a.x) * t + (a.width + (b.width - a.width) * t) / n
      = a.x + a.width / n + (b.x + b.width / n - (a.x + a.width / n)) * t := by ring
  have hy : a.y + (b.y - a.y) * t - gap = a.y - gap + (b.y - gap - (a.y - gap)) * t := by ring
  exact congrArg₂ LabelAnchor.mk (hx 2.0) hy

theorem EntityGeometry.Fits.blend {e e' : EntityGeometry Rat} (h : e.Fits height gap)
    (h' : e'.Fits height gap) (ht : t ∈ Set.Icc (0 : Rat) 1) :
    (CourseCharts.blend e e' t).Fits height gap where
  bars k := by
    change ((CourseCharts.blend e.bars e'.bars t).get k).Fits height
    rw [PerCategory.get_blend]
    exact (h.bars k).blend (h'.bars k) ht
  labels k := by
    change (CourseCharts.blend e.labels e'.labels t).get k
      = ((CourseCharts.blend e.bars e'.bars t).get k).anchor gap
    rw [PerCategory.get_blend, PerCategory.get_blend, Bar.anchor_blend, h.labels, h'.labels]

/-- Bars that leave a place that fits for another one fit on their way. -/
theorem fits_current {a : Transition (List (EntityGeometry Rat)) Rat}
    (horigin : ∀ e ∈ a.origin, e.Fits height gap) (htarget : ∀ e ∈ a.target, e.Fits height gap) :
    ∀ e ∈ a.current, e.Fits height gap :=
  a.forall_mem_current (fun _ _ h h' => h.blend h' (a.easing.apply_mem _)) horigin htarget

end

/-! ## Layouts -/

theorem le_foldl_max {n : Nat} {counts : List Nat} {init : Nat} (h : n ≤ init ∨ n ∈ counts) :
    n ≤ counts.foldl Nat.max init := by
  induction counts generalizing init with
  | nil => simpa using h
  | cons m counts ih =>
    apply ih
    rw [List.mem_cons] at h
    obtain h | rfl | h := h
    · exact .inl (h.trans (Nat.le_max_left _ _))
    · exact .inl (Nat.le_max_right _ _)
    · exact .inr h

theorem CategoryDomains.maxima_rat (data : List Datum) (k : Category) :
    (ofData data : CategoryDomains Rat).maxima.get k
      = ((data.map (·.count k)).foldl Nat.max 0 : Nat) := by
  simp [ofData, Extent.ofCounts]

/-- No record has a count above the greatest one. -/
theorem CategoryDomains.count_le {data : List Datum} {d : Datum} (hd : d ∈ data) (k : Category) :
    (d.count k : Rat) ≤ (ofData data).maxima.get k := by
  rw [maxima_rat, Nat.cast_le]
  exact le_foldl_max (.inr (List.mem_map_of_mem hd))

/-- The height of a count is its share of the greatest one. -/
theorem CategoryDomains.height?_rat (d : CategoryDomains Rat) (k : Category) (count : Nat)
    (span : Rat) : d.height? k count span =
      .ok (if d.maxima.get k ≤ 0 then 0 else count / d.maxima.get k * span) := by
  unfold height?
  dsimp only
  rw [Exact.zero]
  split
  next => rfl
  next hmax =>
    have hne : ((0 : Rat) == d.maxima.get k) = false := beq_eq_false_iff_ne.2 (not_le.1 hmax).ne
    rw [bind_eq_ok]
    refine ⟨_, LinearScale.make?_eq_ok.2 ⟨⟨rfl, rfl, hne⟩, ⟨rfl, rfl⟩, rfl⟩, ?_⟩
    rw [LinearScale.toPixel?_eq_ok]
    exact ⟨rfl, by simp [LinearScale.pixel]⟩

/-- The height of a count is at most the span, the height of the greatest count. -/
theorem CategoryDomains.height?_mem {data : List Datum} {d : Datum} (hd : d ∈ data)
    {k : Category} {span h : Rat} (hspan : 0 ≤ span)
    (hh : (ofData data).height? k (d.count k) span = .ok h) : h ∈ Set.Icc 0 span := by
  have hle := count_le hd k
  rw [height?_rat, Except.ok.injEq] at hh
  subst hh
  split
  next => exact ⟨le_rfl, hspan⟩
  next hmax =>
    rw [not_le] at hmax
    have hshare : (d.count k : Rat) / (ofData data).maxima.get k ∈ Set.Icc (0 : Rat) 1 :=
      ⟨div_nonneg (Nat.cast_nonneg _) hmax.le, (div_le_one hmax).2 hle⟩
    exact ⟨mul_nonneg hshare.1 hspan, mul_le_of_le_one_left hspan hshare.2⟩

namespace Layout

variable {l : Layout Rat}

theorem innerWidth_nonneg : 0 ≤ l.innerWidth :=
  Exact.zero.symm.trans_le (Scalar.right_le_larger _ _)

theorem span_stacked : l.span .stacked = l.plotHeight / 3 := by
  rw [span, show (3.0 : Rat) = 3 by norm_num]

/-- Three bars of a third of the height fit on top of each other. -/
theorem stackedBars_fits {left : Rat} {heights : PerCategory Rat}
    (h : ∀ k, heights.get k ∈ Set.Icc 0 (l.span .stacked)) (k : Category) :
    ((l.stackedBars left heights).get k).Fits l.plotHeight := by
  have h₁ : heights.submissions ∈ Set.Icc 0 (l.span .stacked) := h .submissions
  have h₂ : heights.snapshots ∈ Set.Icc 0 (l.span .stacked) := h .snapshots
  have h₃ : heights.launches ∈ Set.Icc 0 (l.span .stacked) := h .launches
  simp only [span_stacked, Set.mem_Icc] at h₁ h₂ h₃
  have hfits {y h : Rat} (hh : 0 ≤ h) (hy : 0 ≤ y) (hle : y + h ≤ l.plotHeight) :
      Bar.Fits ⟨left, y, l.innerWidth, h⟩ l.plotHeight := ⟨innerWidth_nonneg, hh, hy, hle⟩
  cases k with
  | submissions => exact hfits h₁.1 (by linarith) (by linarith)
  | snapshots => exact hfits h₂.1 (by linarith) (by linarith)
  | launches => exact hfits h₃.1 (by linarith) (by linarith)

/-- Bars of the whole height fit side by side. -/
theorem groupedBars_fits {left : Rat} {heights : PerCategory Rat}
    (h : ∀ k, heights.get k ∈ Set.Icc 0 (l.span .grouped)) (k : Category) :
    ((l.groupedBars left heights).get k).Fits l.plotHeight := by
  have hk : 0 ≤ heights.get k ∧ heights.get k ≤ l.plotHeight := h k
  simp only [groupedBars, PerCategory.get_ofFn]
  exact ⟨div_nonneg innerWidth_nonneg (by norm_num), hk.1, sub_nonneg.2 hk.2,
    (sub_add_cancel _ _).le⟩

/-- A record fits into the layout of its data. -/
theorem entity?_fits {data : List Datum} (hdomains : l.domains = .ofData data)
    (hheight : 0 ≤ l.plotHeight) {d : Datum} (hd : d ∈ data) {a : Arrangement}
    {e : EntityGeometry Rat} (he : l.entity? a d = .ok e) :
    e.Fits l.plotHeight l.labelGap := by
  have hspan : 0 ≤ l.span a := by
    cases a with
    | stacked => exact span_stacked ▸ div_nonneg hheight (by norm_num)
    | grouped => exact hheight
  obtain ⟨heights, hh, rfl⟩ := entity?_eq_ok.1 he
  have hheights (k : Category) : heights.get k ∈ Set.Icc 0 (l.span a) :=
    CategoryDomains.height?_mem hd hspan (hdomains ▸ hh k)
  refine ⟨?_, PerCategory.get_map _ _⟩
  cases a with
  | stacked => exact stackedBars_fits hheights
  | grouped => exact groupedBars_fits hheights

theorem geometry?_fits {data : List Datum} {plot : PlotArea Rat} {groupBuffer labelGap : Rat}
    (hl : make? data plot groupBuffer labelGap = .ok l) (hheight : 0 ≤ plot.height)
    {a : Arrangement} {es : List (EntityGeometry Rat)} (hes : l.geometry? a data = .ok es) :
    ∀ e ∈ es, e.Fits plot.height labelGap := by
  obtain ⟨-, rfl⟩ := make?_eq_ok.1 hl
  exact forall_mem_of_mapM (fun d hd e he => entity?_fits rfl hheight hd he) hes

end Layout

end CourseCharts.Overview

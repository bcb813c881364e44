/-
  CourseCharts — what the bars say about the counts.

  Every category has a scale of its own, on which the greatest count reaches
  the whole span.  A stacked bar has a third of the span of a grouped one and
  three times its width, so both say the same.

  * `Proportional`: the heights of bars are those of the counts;
  * `PerCategory.Piled` and `PerCategory.Aligned`: stacked bars stand on each
    other, grouped bars on the baseline;
  * `Layout.entities_alike`: a record has the same areas in both arrangements;
  * `arrangements_show_counts`: all of it, for all records of a chart.
-/
import CourseCharts.Proofs.Overview.Bands

namespace CourseCharts.Overview

/-! ## Heights -/

/-- The bars have the heights of the counts, where the greatest count of a category is as high as
    the span, and zero is the height of all counts if that is zero. -/
structure Proportional (data : List Datum) (span : Rat) (es : List (EntityGeometry Rat)) :
    Prop where
  length : es.length = data.length
  height : ∀ k top, IsGreatest {n | ∃ d ∈ data, d.count k = n} top →
    ∀ d e, (d, e) ∈ data.zip es →
      (e.bars.get k).height = if top = 0 then 0 else (d.count k : Rat) / top * span
  /-- More activity never has a lower bar. -/
  monotone : ∀ k d e d' e', (d, e) ∈ data.zip es → (d', e') ∈ data.zip es →
    d.count k ≤ d'.count k → (e.bars.get k).height ≤ (e'.bars.get k).height
  /-- The greatest count has the whole height, unless it is zero. -/
  full : ∀ k d e, (d, e) ∈ data.zip es → 0 < d.count k →
    (∀ d' ∈ data, d'.count k ≤ d.count k) → (e.bars.get k).height = span

theorem foldl_max_mem (counts : List Nat) (init : Nat) :
    counts.foldl Nat.max init = init ∨ counts.foldl Nat.max init ∈ counts := by
  induction counts generalizing init with
  | nil => exact .inl rfl
  | cons n counts ih =>
    rw [List.foldl_cons, List.mem_cons]
    rcases ih (Nat.max init n) with h | h
    · rcases Nat.le_total init n with hle | hle
      · exact .inr (.inl (h.trans (Nat.max_eq_right hle)))
      · exact .inl (h.trans (Nat.max_eq_left hle))
    · exact .inr (.inr h)

/-- The domain of a category ends at the greatest count. -/
theorem CategoryDomains.maxima_of_isGreatest {data : List Datum} {k : Category} {top : Nat}
    (h : IsGreatest {n | ∃ d ∈ data, d.count k = n} top) :
    (ofData data : CategoryDomains Rat).maxima.get k = top := by
  obtain ⟨⟨d, hd, rfl⟩, hle⟩ := h
  rw [maxima_rat, Nat.cast_inj]
  apply Nat.le_antisymm
  · rcases foldl_max_mem (data.map (·.count k)) 0 with hzero | hmem
    · rw [hzero]
      exact Nat.zero_le _
    · obtain ⟨d', hd', hd'eq⟩ := List.mem_map.1 hmem
      exact hle ⟨d', hd', hd'eq⟩
  · exact le_foldl_max (.inr (List.mem_map_of_mem hd))

/-- Every category has a greatest count. -/
theorem exists_isGreatest {data : List Datum} (hdata : data ≠ []) (k : Category) :
    ∃ top, IsGreatest {n | ∃ d ∈ data, d.count k = n} top := by
  obtain ⟨d, hd, hmax⟩ := data.toFinset.exists_max_image (·.count k)
    (List.toFinset_nonempty_iff data |>.2 hdata)
  refine ⟨d.count k, ⟨d, List.mem_toFinset.1 hd, rfl⟩, ?_⟩
  rintro n ⟨d', hd', rfl⟩
  exact hmax d' (List.mem_toFinset.2 hd')

namespace Layout

variable {l : Layout Rat} {a : Arrangement} {d : Datum} {e e' : EntityGeometry Rat}

theorem bars_height (start : Rat) (heights : PerCategory Rat) (a : Arrangement) (k : Category) :
    ((l.bars start heights a).get k).height = heights.get k := by
  cases a <;> cases k <;> rfl

/-- The height of the bar of a count. -/
theorem entity?_height (he : l.entity? a d = .ok e) (k : Category) :
    (e.bars.get k).height = if l.domains.maxima.get k ≤ 0 then 0
      else d.count k / l.domains.maxima.get k * l.span a := by
  obtain ⟨heights, hheights, rfl⟩ := entity?_eq_ok.1 he
  have h := hheights k
  rw [CategoryDomains.height?_rat, Except.ok.injEq] at h
  rw [bars_height, ← h]

variable {data : List Datum} {es : List (EntityGeometry Rat)}

theorem entity?_of_mem_zip (hes : l.geometry? a data = .ok es) (hde : (d, e) ∈ data.zip es) :
    l.entity? a d = .ok e :=
  (List.forall₂_iff_zip.1 (mapM_eq_ok.1 hes)).2 hde

theorem geometry?_proportional {plot : PlotArea Rat} {groupBuffer labelGap : Rat}
    (hl : make? data plot groupBuffer labelGap = .ok l) (hdata : data ≠ [])
    (hspan : 0 ≤ l.span a) (hes : l.geometry? a data = .ok es) :
    Proportional data (l.span a) es := by
  have hdomains : l.domains = .ofData data := by
    obtain ⟨-, rfl⟩ := make?_eq_ok.1 hl
    rfl
  have hheight (k : Category) (top : Nat) (htop : IsGreatest {n | ∃ d ∈ data, d.count k = n} top)
      (d : Datum) (e : EntityGeometry Rat) (hde : (d, e) ∈ data.zip es) :
      (e.bars.get k).height = if top = 0 then 0 else (d.count k : Rat) / top * l.span a := by
    rw [entity?_height (entity?_of_mem_zip hes hde), hdomains,
      CategoryDomains.maxima_of_isGreatest htop]
    simp only [Nat.cast_nonpos]
  refine ⟨mapM_length hes, hheight, ?_, ?_⟩
  · intro k d e d' e' hde hde' hle
    obtain ⟨top, htop⟩ := exists_isGreatest hdata k
    rw [hheight k top htop d e hde, hheight k top htop d' e' hde']
    split
    next => exact le_rfl
    next =>
      gcongr
  · intro k d e hde hpos hle
    have htop : IsGreatest {n | ∃ d ∈ data, d.count k = n} (d.count k) := by
      refine ⟨⟨d, (List.of_mem_zip hde).1, rfl⟩, ?_⟩
      rintro n ⟨d', hd', rfl⟩
      exact hle d' hd'
    rw [hheight k _ htop d e hde, if_neg hpos.ne', div_self (Nat.cast_ne_zero.2 hpos.ne'), one_mul]

end Layout

/-! ## Places -/

/-- The first bar stands on the baseline, and each of the others on the one before; no bar leaves
    the plot. -/
structure PerCategory.Piled (bars : PerCategory (Bar Rat)) (height : Rat) : Prop where
  submissions : bars.submissions.y + bars.submissions.height = height
  snapshots : bars.snapshots.y + bars.snapshots.height = bars.submissions.y
  launches : bars.launches.y + bars.launches.height = bars.snapshots.y
  top : 0 ≤ bars.launches.y

/-- All bars stand on the baseline, and none leaves the plot. -/
def PerCategory.Aligned (bars : PerCategory (Bar Rat)) (height : Rat) : Prop :=
  ∀ k, (bars.get k).y + (bars.get k).height = height ∧ 0 ≤ (bars.get k).y

namespace Layout

variable {l : Layout Rat} {d : Datum} {e e' : EntityGeometry Rat}

theorem piled {height gap : Rat} (he : l.entity? .stacked d = .ok e)
    (hheight : l.plotHeight = height) (hfits : e.Fits height gap) : e.bars.Piled height := by
  have htop := (hfits.bars .launches).nonneg_y
  obtain ⟨heights, -, rfl⟩ := entity?_eq_ok.1 he
  subst hheight
  exact ⟨sub_add_cancel _ _, sub_add_cancel _ _, sub_add_cancel _ _, htop⟩

theorem aligned {height gap : Rat} (he : l.entity? .grouped d = .ok e)
    (hheight : l.plotHeight = height) (hfits : e.Fits height gap) : e.bars.Aligned height := by
  intro k
  refine ⟨?_, (hfits.bars k).nonneg_y⟩
  obtain ⟨heights, -, rfl⟩ := entity?_eq_ok.1 he
  subst hheight
  cases k <;> exact sub_add_cancel _ _

/-! ## Areas -/

/-- A record has the same areas in both arrangements: what its bars lose in width side by side,
    they gain in height. -/
theorem entities_alike (he : l.entity? .stacked d = .ok e) (he' : l.entity? .grouped d = .ok e') :
    (∀ k, (e'.bars.get k).area = (e.bars.get k).area) ∧ e'.area = e.area := by
  have harea (k : Category) : (e'.bars.get k).area = (e.bars.get k).area := by
    have hheight : (e'.bars.get k).height = 3 * (e.bars.get k).height := by
      rw [entity?_height he, entity?_height he', span_stacked, span]
      split
      next => rw [mul_zero]
      next => ring
    have hwidth : (e.bars.get k).width = 3 * (e'.bars.get k).width := by
      obtain ⟨heights, -, rfl⟩ := entity?_eq_ok.1 he
      obtain ⟨heights', -, rfl⟩ := entity?_eq_ok.1 he'
      have hstacked : ((l.bars (l.left d) heights .stacked).get k).width = l.innerWidth := by
        cases k <;> rfl
      have hgrouped : ((l.bars (l.left d) heights' .grouped).get k).width = l.innerWidth / 3 :=
        groupedBars_width k
      dsimp only
      rw [hstacked, hgrouped]
      ring
    rw [Bar.area, Bar.area, hheight, hwidth]
    ring
  exact ⟨harea, congrArg₂ (· + ·) (congrArg₂ (· + ·) (harea .submissions) (harea .snapshots))
    (harea .launches)⟩

end Layout

/-- **Arrangements show counts.** Records have a layout and, in both arrangements, an entity each,
    on every plot with an area and whatever the buffer and the gap are.
    In every category the heights are those of the counts: the greatest one has the whole span,
    a third of the plot for stacked bars and all of it for grouped ones, and zero is the height
    of all counts if none is above zero.  Stacked bars stand on each other, the first one on the
    baseline; grouped bars all stand on it; and none leaves the plot at the top.
    So every bar of a record has the same area in both arrangements, and the record has. -/
theorem arrangements_show_counts {data : List Datum} (hdata : data ≠ []) {plot : PlotArea Rat}
    (hplot : plot.isValid = true) (groupBuffer labelGap : Rat) :
    ∃ l stacked grouped,
      Layout.make? data plot groupBuffer labelGap = .ok l ∧
      l.geometry? .stacked data = .ok stacked ∧ l.geometry? .grouped data = .ok grouped ∧
      Proportional data (plot.height / 3) stacked ∧ Proportional data plot.height grouped ∧
      (∀ e ∈ stacked, e.bars.Piled plot.height) ∧ (∀ e ∈ grouped, e.bars.Aligned plot.height) ∧
      List.Forall₂ (fun e e' => (∀ k, (e'.bars.get k).area = (e.bars.get k).area) ∧
        e'.area = e.area) stacked grouped := by
  obtain ⟨hwidth, hheight⟩ := Bool.and_eq_true_iff.1 hplot
  rw [Requirement.positive_rat] at hheight
  obtain ⟨l, hl⟩ : ∃ l, Layout.make? data plot groupBuffer labelGap = .ok l :=
    ⟨_, Layout.make?_eq_ok.2 ⟨hwidth, rfl⟩⟩
  have hplotHeight : l.plotHeight = plot.height := by
    obtain ⟨-, rfl⟩ := Layout.make?_eq_ok.1 hl
    rfl
  have hstackedSpan : l.span .stacked = plot.height / 3 := by
    rw [Layout.span_stacked, hplotHeight]
  have hgroupedSpan : l.span .grouped = plot.height := hplotHeight
  obtain ⟨stacked, hstacked⟩ := l.exists_geometry? .stacked data
  obtain ⟨grouped, hgrouped⟩ := l.exists_geometry? .grouped data
  have hstackedFits := Layout.geometry?_fits hl hheight.le hstacked
  have hgroupedFits := Layout.geometry?_fits hl hheight.le hgrouped
  refine ⟨l, stacked, grouped, hl, hstacked, hgrouped, ?_, ?_, ?_, ?_, ?_⟩
  · rw [← hstackedSpan]
    exact Layout.geometry?_proportional hl hdata (by rw [hstackedSpan]; linarith) hstacked
  · rw [← hgroupedSpan]
    exact Layout.geometry?_proportional hl hdata (by rw [hgroupedSpan]; linarith) hgrouped
  · have hpiled := forall_of_mapM (P := fun e => e.Fits plot.height labelGap → _)
      (fun d e he hfits => Layout.piled he hplotHeight hfits) hstacked
    exact fun e he => hpiled e he (hstackedFits e he)
  · have haligned := forall_of_mapM (P := fun e => e.Fits plot.height labelGap → _)
      (fun d e he hfits => Layout.aligned he hplotHeight hfits) hgrouped
    exact fun e he => haligned e he (hgroupedFits e he)
  · exact forall₂_of_mapM (fun d e e' he he' => Layout.entities_alike he he') hstacked hgrouped

/-- Records that share a key, in bands that the buffers fill, with no launches at all. -/
theorem arrangements_show_counts_no_launches :
    let data : List Datum := [⟨⟨"7"⟩, ⟨12, 4, 0⟩⟩, ⟨⟨"7"⟩, ⟨3, 8, 0⟩⟩]
    let plot : PlotArea Rat := ⟨0, 0, 10, 30⟩
    data ≠ [] ∧ plot.isValid = true ∧
      ∃ l stacked grouped, Layout.make? data plot 6 2 = .ok l ∧
        l.geometry? .stacked data = .ok stacked ∧ l.geometry? .grouped data = .ok grouped ∧
        (∀ e, (data[1], e) ∈ data.zip stacked →
          e.bars.submissions.height = 3 / 12 * 10 ∧ e.bars.snapshots.height = 10 ∧
            e.bars.launches.height = 0) ∧
        ∀ e, (data[0], e) ∈ data.zip grouped → e.bars.submissions.height = 30 := by
  intro data plot
  have hdata : data ≠ [] := List.cons_ne_nil _ _
  have hplot : plot.isValid = true := by simp [PlotArea.isValid, plot]
  obtain ⟨l, stacked, grouped, hl, hstacked, hgrouped, hpiles, hgroups, -⟩ :=
    arrangements_show_counts hdata hplot 6 2
  refine ⟨hdata, hplot, l, stacked, grouped, hl, hstacked, hgrouped, fun e he => ?_, fun e he => ?_⟩
  · have hgreatest (k : Category) (hle : ∀ d ∈ data, d.count k ≤ data[0].count k) :
        IsGreatest {n | ∃ d ∈ data, d.count k = n} (data[0].count k) := by
      refine ⟨⟨data[0], List.getElem_mem _, rfl⟩, ?_⟩
      rintro n ⟨d, hd, rfl⟩
      exact hle d hd
    have hthird : plot.height / 3 = 10 := by norm_num [plot]
    have hsnapshots := hpiles.full .snapshots _ e he (by decide) (by decide)
    have hheight := hpiles.height .submissions _ (hgreatest .submissions (by decide)) _ e he
    have hzero := hpiles.height .launches _ (hgreatest .launches (by decide)) _ e he
    rw [hthird] at hsnapshots hheight
    exact ⟨hheight, hsnapshots, hzero⟩
  · exact hgroups.full .submissions _ e he (by decide) (by decide)

end CourseCharts.Overview

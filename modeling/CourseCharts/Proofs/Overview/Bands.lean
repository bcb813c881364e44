/-
  CourseCharts — bars and their bands.

  The bars of a record start at the buffer after the left edge of the band of
  its key, and share what the buffers at both sides leave of the band.  If that
  is nothing, they have no width, but still start after the buffer.

  * `Layout.Shape`: what the records can look like in a layout, in an
    arrangement or on the way between two shapes;
  * `Layout.Shape.within`: the bars of a record stay between its `left` edge
    and the inner width after it;
  * `bars_in_bands`: so they stay in their band exactly if the buffer is no
    wider than a band, and bars of different keys always stay apart.
-/
import CourseCharts.Proofs.Overview.Bars
import CourseCharts.Proofs.Scale.Band

namespace CourseCharts.Overview

/-! ## Places on a line -/

/-- The bar has a width, and lies between two vertical lines. -/
structure Bar.Within (b : Bar Rat) (left right : Rat) : Prop where
  nonneg_width : 0 ≤ b.width
  left_le : left ≤ b.x
  le_right : b.x + b.width ≤ right

/-- The first bar ends where the second one starts, or before. -/
def Bar.Before (b b' : Bar Rat) : Prop := b.x + b.width ≤ b'.x

namespace Bar.Within

variable {b b' : Bar Rat} {left right left' right' t : Rat}

theorem left_le_of_buffer {buffer : Rat} (h : b.Within (left + buffer) right)
    (hbuffer : 0 ≤ buffer) : left ≤ b.x := (le_add_of_nonneg_right hbuffer).trans h.left_le

theorem before (h : b.Within left right) (h' : b'.Within left' right') (hle : right ≤ left') :
    b.Before b' := h.le_right.trans (hle.trans h'.left_le)

/-- The place between two vertical lines is convex. -/
theorem blend (h : b.Within left right) (h' : b'.Within left right)
    (ht : t ∈ Set.Icc (0 : Rat) 1) : (CourseCharts.blend b b' t).Within left right := by
  refine ⟨le_blend h.nonneg_width h'.nonneg_width ht, le_blend h.left_le h'.left_le ht, ?_⟩
  calc (CourseCharts.blend b b' t).x + (CourseCharts.blend b b' t).width
      = CourseCharts.blend (b.x + b.width) (b'.x + b'.width) t := blend_add
    _ ≤ right := blend_le h.le_right h'.le_right ht

end Bar.Within

/-! ## Bars of a layout -/

namespace Layout

/-- What the records can look like. -/
inductive Shape (l : Layout Rat) (data : List Datum) : List (EntityGeometry Rat) → Prop where
  /-- They are in an arrangement. -/
  | arranged {a : Arrangement} {es : List (EntityGeometry Rat)} :
    l.geometry? a data = .ok es → Shape l data es
  /-- They are on the way from one shape to another. -/
  | between {es es' : List (EntityGeometry Rat)} {t : Rat} :
    Shape l data es → Shape l data es' → t ∈ Set.Icc (0 : Rat) 1 → Shape l data (blend es es' t)

variable {l : Layout Rat} {start : Rat} {heights : PerCategory Rat}

theorem stackedBars_within (k : Category) :
    ((l.stackedBars start heights).get k).Within start (start + l.innerWidth) := by
  cases k <;> exact ⟨innerWidth_nonneg, le_rfl, le_rfl⟩

/-- Side by side, the bars start one after another. -/
theorem groupedBars_x (k : Category) :
    ((l.groupedBars start heights).get k).x = start + k.index * (l.innerWidth / 3) := by
  have hthree : (3.0 : Rat) = 3 := by norm_num
  simp only [groupedBars, PerCategory.get_ofFn, Scalar.ofNat_rat, hthree]

theorem groupedBars_width (k : Category) :
    ((l.groupedBars start heights).get k).width = l.innerWidth / 3 := by
  have hthree : (3.0 : Rat) = 3 := by norm_num
  simp only [groupedBars, PerCategory.get_ofFn, hthree]

theorem groupedBars_within (k : Category) :
    ((l.groupedBars start heights).get k).Within start (start + l.innerWidth) := by
  have hinner : 0 ≤ l.innerWidth / 3 := div_nonneg innerWidth_nonneg (by norm_num)
  have hindex : (k.index + 1 : Rat) ≤ 3 := by exact_mod_cast k.index_lt
  refine ⟨?_, ?_, ?_⟩
  · rw [groupedBars_width]
    exact hinner
  · rw [groupedBars_x]
    exact le_add_of_nonneg_right (mul_nonneg (Nat.cast_nonneg _) hinner)
  · rw [groupedBars_x, groupedBars_width, add_assoc, ← add_one_mul]
    have hshare := mul_le_mul_of_nonneg_right hindex hinner
    linarith

theorem groupedBars_before {k k' : Category} (hk : k.index < k'.index) :
    ((l.groupedBars start heights).get k).Before ((l.groupedBars start heights).get k') := by
  have hinner : 0 ≤ l.innerWidth / 3 := div_nonneg innerWidth_nonneg (by norm_num)
  have hindex : (k.index + 1 : Rat) ≤ k'.index := by exact_mod_cast hk
  rw [Bar.Before, groupedBars_x, groupedBars_x, groupedBars_width, add_assoc, ← add_one_mul]
  exact add_le_add_right (mul_le_mul_of_nonneg_right hindex hinner) start

theorem groupedBars_next {k k' : Category} (hk : k'.index = k.index + 1) :
    ((l.groupedBars start heights).get k').x = ((l.groupedBars start heights).get k).x
      + ((l.groupedBars start heights).get k).width := by
  rw [groupedBars_x, groupedBars_x, groupedBars_width, hk, Nat.cast_succ, add_one_mul, add_assoc]

theorem entity?_within {a : Arrangement} {d : Datum} {e : EntityGeometry Rat}
    (he : l.entity? a d = .ok e) (k : Category) :
    (e.bars.get k).Within (l.left d) (l.left d + l.innerWidth) := by
  obtain ⟨heights, -, rfl⟩ := entity?_eq_ok.1 he
  cases a with
  | stacked => exact stackedBars_within k
  | grouped => exact groupedBars_within k

/-- The bars of every record start where they should, and share the inner width. -/
theorem Shape.within {data : List Datum} {es : List (EntityGeometry Rat)} (h : l.Shape data es) :
    List.Forall₂ (fun d e => ∀ k, (e.bars.get k).Within (l.left d) (l.left d + l.innerWidth))
      data es := by
  induction h with
  | arranged hes => exact (mapM_eq_ok.1 hes).imp fun _ _ he => entity?_within he
  | between _ _ ht ih ih' =>
    refine forall₂_blend (fun d e e' h h' k => ?_) ih ih'
    change ((CourseCharts.blend e.bars e'.bars _).get k).Within _ _
    rw [PerCategory.get_blend]
    exact (h k).blend (h' k) ht

/-! ### Bands and buffers -/

theorem innerWidth_eq_max : l.innerWidth = max (l.bands.bandwidth - 2 * l.groupBuffer) 0 := by
  rw [innerWidth, Scalar.larger_rat, Exact.zero, show (2.0 : Rat) = 2 by norm_num]

/-- The buffers only take width from the bars. -/
theorem innerWidth_le (hbuffer : 0 ≤ l.groupBuffer) (hband : 0 ≤ l.bands.bandwidth) :
    l.innerWidth ≤ l.bands.bandwidth := by
  rw [innerWidth_eq_max]
  exact max_le (by linarith) hband

/-- There is room for the left buffer and the bars if the buffer is no wider than a band. -/
theorem buffer_add_innerWidth_le (hbuffer : 0 ≤ l.groupBuffer)
    (hle : l.groupBuffer ≤ l.bands.bandwidth) :
    l.groupBuffer + l.innerWidth ≤ l.bands.bandwidth := by
  rw [innerWidth_eq_max]
  rcases max_choice (l.bands.bandwidth - 2 * l.groupBuffer) 0 with h | h
  · rw [h]
    linarith
  · rw [h, add_zero]
    exact hle

section
variable {b b' : Bar Rat} {left left' : Rat}

/-- A bar ends in a band exactly if the left buffer does. -/
theorem le_band_iff (hbuffer : 0 ≤ l.groupBuffer)
    (hb : b.Within (left + l.groupBuffer) (left + l.groupBuffer + l.innerWidth)) :
    b.x + b.width ≤ left + l.bands.bandwidth ↔ l.groupBuffer ≤ l.bands.bandwidth := by
  constructor
  · intro h
    linarith only [hb.left_le, hb.nonneg_width, h]
  · intro hle
    linarith only [hb.le_right, buffer_add_innerWidth_le hbuffer hle]

/-- The bars of one band end before those of a later band start, however wide the buffer is. -/
theorem before_of_band_le (hbuffer : 0 ≤ l.groupBuffer) (hband : 0 ≤ l.bands.bandwidth)
    (hb : b.Within (left + l.groupBuffer) (left + l.groupBuffer + l.innerWidth))
    (hb' : b'.Within (left' + l.groupBuffer) (left' + l.groupBuffer + l.innerWidth))
    (hle : left + l.bands.bandwidth ≤ left') : b.Before b' := by
  have hinner := innerWidth_le hbuffer hband
  exact hb.before hb' (by linarith only [hinner, hle])

end

section
variable {data : List Datum} {plot : PlotArea Rat} {groupBuffer labelGap : Rat}

theorem width_nonneg (hl : make? data plot groupBuffer labelGap = .ok l) : 0 ≤ l.bands.width := by
  obtain ⟨hpositive, rfl⟩ := make?_eq_ok.1 hl
  exact (Requirement.positive_rat.1 hpositive).le

/-- The key of every record has a band. -/
theorem exists_position? (hl : make? data plot groupBuffer labelGap = .ok l) {d : Datum}
    (hd : d ∈ data) : ∃ left, l.bands.position? d.key.text = some left := by
  obtain ⟨-, rfl⟩ := make?_eq_ok.1 hl
  rw [← Option.isSome_iff_exists, BandScale.position?_isSome, List.mem_eraseDups]
  exact List.mem_map_of_mem hd

/-- The last band is that of some record, and ends where the plot ends. -/
theorem exists_last_band (hl : make? data plot groupBuffer labelGap = .ok l) (hdata : data ≠ []) :
    ∃ d ∈ data, ∃ left, l.bands.position? d.key.text = some left ∧
      left + l.bands.bandwidth = l.bands.width := by
  obtain ⟨-, rfl⟩ := make?_eq_ok.1 hl
  obtain ⟨d, hd⟩ := List.exists_mem_of_ne_nil data hdata
  have hmem {key : String} :
      key ∈ (data.map (·.key.text)).eraseDups ↔ ∃ d ∈ data, d.key.text = key := by
    rw [List.mem_eraseDups, List.mem_map]
  obtain ⟨key, hkey, left, hleft, hwidth⟩ := BandScale.exists_last_band
    (b := ⟨(data.map (·.key.text)).eraseDups, plot.width⟩) (BandScale.nodup_eraseDups _)
    (List.ne_nil_of_mem (hmem.2 ⟨d, hd, rfl⟩))
  obtain ⟨d', hd', rfl⟩ := hmem.1 hkey
  exact ⟨d', hd', left, hleft, hwidth⟩

/-- The bars of a record start after the left buffer of the band of its key. -/
theorem Shape.within_band {es : List (EntityGeometry Rat)} (hes : l.Shape data es) {d : Datum}
    {e : EntityGeometry Rat} (hde : (d, e) ∈ data.zip es) {left : Rat}
    (hleft : l.bands.position? d.key.text = some left) (k : Category) :
    (e.bars.get k).Within (left + l.groupBuffer) (left + l.groupBuffer + l.innerWidth) := by
  have h := (List.forall₂_iff_zip.1 hes.within).2 hde k
  rwa [Layout.left, hleft, Option.getD_some] at h

/-- Where the bars of some records are. -/
structure Banded (l : Layout Rat) (data : List Datum) (es : List (EntityGeometry Rat)) : Prop where
  /-- Every record has its bars. -/
  length : es.length = data.length
  /-- They never start before the band of its key, and end in it exactly if the buffer is no wider
      than that. -/
  in_band : ∀ d e, (d, e) ∈ data.zip es → ∃ left, l.bands.position? d.key.text = some left ∧
    ∀ k, 0 ≤ (e.bars.get k).width ∧ left ≤ (e.bars.get k).x ∧
      ((e.bars.get k).x + (e.bars.get k).width ≤ left + l.bands.bandwidth ↔
        l.groupBuffer ≤ l.bands.bandwidth)
  /-- Then, and only then, all bars are in the plot. -/
  in_plot : (∀ e ∈ es, ∀ k, (e.bars.get k).Within 0 l.bands.width) ↔
    l.groupBuffer ≤ l.bands.bandwidth
  /-- Bars of different keys share at most an edge. -/
  apart : ∀ d e d' e', (d, e) ∈ data.zip es → (d', e') ∈ data.zip es → d.key ≠ d'.key →
    ∀ k k', (e.bars.get k).Before (e'.bars.get k') ∨ (e'.bars.get k').Before (e.bars.get k)

theorem Shape.in_plot_iff (hl : make? data plot groupBuffer labelGap = .ok l) (hdata : data ≠ [])
    (hbuffer : 0 ≤ l.groupBuffer) {es : List (EntityGeometry Rat)} (hes : l.Shape data es) :
    (∀ e ∈ es, ∀ k, (e.bars.get k).Within 0 l.bands.width) ↔
      l.groupBuffer ≤ l.bands.bandwidth := by
  have hlength := hes.within.length_eq
  constructor
  · -- the bars of the last band are the first ones to leave the plot
    intro h
    obtain ⟨d, hd, left, hleft, hlast⟩ := exists_last_band hl hdata
    rw [← List.map_fst_zip hlength.le, List.mem_map] at hd
    obtain ⟨⟨d, e⟩, hde, rfl⟩ := hd
    have hbar := hes.within_band hde hleft .submissions
    have hplot := h e (List.of_mem_zip hde).2 .submissions
    linarith only [hbar.left_le, hbar.nonneg_width, hplot.le_right, hlast]
  · intro hle e he k
    rw [← List.map_snd_zip hlength.ge, List.mem_map] at he
    obtain ⟨⟨d, e⟩, hde, rfl⟩ := he
    obtain ⟨left, hleft⟩ := exists_position? hl (List.of_mem_zip hde).1
    have hbar := hes.within_band hde hleft k
    obtain ⟨hnonneg, hright⟩ := BandScale.band_within (width_nonneg hl) hleft
    exact ⟨hbar.nonneg_width, hnonneg.trans (hbar.left_le_of_buffer hbuffer),
      ((le_band_iff hbuffer hbar).2 hle).trans hright⟩

/-- The bars have their places in any shape of a layout. -/
theorem Shape.banded (hl : make? data plot groupBuffer labelGap = .ok l) (hdata : data ≠ [])
    (hbuffer : 0 ≤ l.groupBuffer) {es : List (EntityGeometry Rat)} (hes : l.Shape data es) :
    l.Banded data es where
  length := hes.within.length_eq.symm
  in_band d e hde := by
    obtain ⟨left, hleft⟩ := exists_position? hl (List.of_mem_zip hde).1
    refine ⟨left, hleft, fun k => ?_⟩
    have hbar := hes.within_band hde hleft k
    exact ⟨hbar.nonneg_width, hbar.left_le_of_buffer hbuffer, le_band_iff hbuffer hbar⟩
  in_plot := hes.in_plot_iff hl hdata hbuffer
  apart d e d' e' hde hde' hkeys k k' := by
    obtain ⟨left, hleft⟩ := exists_position? hl (List.of_mem_zip hde).1
    obtain ⟨left', hleft'⟩ := exists_position? hl (List.of_mem_zip hde').1
    have hwidth := width_nonneg hl
    have hband := BandScale.bandwidth_nonneg hwidth
    have hbar := hes.within_band hde hleft k
    have hbar' := hes.within_band hde' hleft' k'
    have htexts : d.key.text ≠ d'.key.text := fun h => hkeys (congrArg RecordKey.mk h)
    rcases BandScale.bands_apart hwidth htexts hleft hleft' with h | h
    · exact .inl (before_of_band_le hbuffer hband hbar hbar' h)
    · exact .inr (before_of_band_le hbuffer hband hbar' hbar h)

end

end Layout

/-- **Bars and bands.** Records have a layout and a geometry in every plot with an area, whatever
    the buffer.  In both arrangements, and on any way between them, the bars of a record start in
    the band of its key, or after it; they end in the band, and all bars in the plot, exactly if
    the buffer is no wider than a band; and of two bars of different keys one always ends before
    the other one starts.  Side by side, the bars of a record touch each other in the order of
    the categories. -/
theorem bars_in_bands {data : List Datum} (hdata : data ≠ []) {plot : PlotArea Rat}
    (hplot : plot.isValid = true) {groupBuffer : Rat} (hbuffer : 0 ≤ groupBuffer)
    (labelGap : Rat) :
    ∃ l, Layout.make? data plot groupBuffer labelGap = .ok l ∧
      l.bands.width = plot.width ∧ l.groupBuffer = groupBuffer ∧
      (∀ a, ∃ es, l.geometry? a data = .ok es) ∧
      (∀ es, l.Shape data es → l.Banded data es) ∧
      ∀ es, l.geometry? .grouped data = .ok es → ∀ e ∈ es, ∀ k k', k.index < k'.index →
        (e.bars.get k).Before (e.bars.get k') ∧
          (k'.index = k.index + 1 →
            (e.bars.get k').x = (e.bars.get k).x + (e.bars.get k).width) := by
  obtain ⟨l, hl⟩ : ∃ l, Layout.make? data plot groupBuffer labelGap = .ok l :=
    ⟨_, Layout.make?_eq_ok.2 ⟨(Bool.and_eq_true_iff.1 hplot).1, rfl⟩⟩
  have hfields : l.bands.width = plot.width ∧ l.groupBuffer = groupBuffer := by
    obtain ⟨-, rfl⟩ := Layout.make?_eq_ok.1 hl
    exact ⟨rfl, rfl⟩
  refine ⟨l, hl, hfields.1, hfields.2, fun a => l.exists_geometry? a data,
    fun es hes => hes.banded hl hdata (hfields.2 ▸ hbuffer), fun es hes => ?_⟩
  refine forall_of_mapM (fun d e he k k' hk => ?_) hes
  obtain ⟨heights, -, rfl⟩ := Layout.entity?_eq_ok.1 he
  exact ⟨Layout.groupedBars_before hk, Layout.groupedBars_next⟩

/-- With a buffer wider than the bands, some bar is outside of the plot at any time. -/
theorem bars_in_bands_wide_buffer :
    let data : List Datum := [⟨⟨"a"⟩, 1, 1, 1⟩, ⟨⟨"b"⟩, 1, 1, 1⟩]
    let plot : PlotArea Rat := ⟨0, 0, 10, 30⟩
    data ≠ [] ∧ plot.isValid = true ∧ (0 : Rat) ≤ 6 ∧
      ∃ l, Layout.make? data plot 6 2 = .ok l ∧ (∃ es, l.Shape data es) ∧
        ∀ es, l.Shape data es → ¬ ∀ e ∈ es, ∀ k, (e.bars.get k).Within 0 plot.width := by
  intro data plot
  have hdata : data ≠ [] := List.cons_ne_nil _ _
  have hplot : plot.isValid = true := by
    simp [PlotArea.isValid, plot]
  refine ⟨hdata, hplot, by norm_num, ?_⟩
  obtain ⟨l, hl, hwidth, hbuffer, hexists, hbanded, -⟩ :=
    bars_in_bands hdata hplot (by norm_num : (0 : Rat) ≤ 6) 2
  obtain ⟨es, hes⟩ := hexists .stacked
  refine ⟨l, hl, ⟨es, .arranged hes⟩, fun es hes hin => ?_⟩
  have hle := (hbanded es hes).in_plot.1 (hwidth ▸ hin)
  have hband : l.bands.bandwidth = 5 := by
    obtain ⟨-, rfl⟩ := Layout.make?_eq_ok.1 hl
    decide +kernel
  rw [hbuffer, hband] at hle
  norm_num at hle

end CourseCharts.Overview

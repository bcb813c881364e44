/-
  CourseCharts — animations start where the chart is shown.

  A zoom and a toggle take what is shown at that moment, at rest or on a way
  that they interrupt, as the origin of a new animation.

  * `Scatter.Chart.Shows.exists_zoomPlan?`: in exact arithmetic every valid step
    on a projection is made, since the zoom is always regular
    (`Scatter.Chart.zoom_pos_after`);
  * `Scatter.Chart.body_zoomBy` and `Overview.Chart.frame_toggle`: at its first
    moment, the new animation is where the chart was shown;
  * `animations_start_where_shown`: so it is after any operations, in any nesting
    of interrupted animations.
-/
import CourseCharts.Proofs.Overview.Invariant
import CourseCharts.Proofs.Scatter.Blend
import CourseCharts.Proofs.Scatter.Toggle
import CourseCharts.Proofs.Scatter.ZoomStep

namespace CourseCharts

/-! ## Zooms -/

namespace Scatter

namespace Chart

variable {σ : Type}

/-- The scales of a chart have a domain and a range that are no points. -/
theorem Shows.proper {c : Chart Rat σ} {d : Dataset Rat} {b s : Scales Rat} {p : Projection Rat}
    (h : c.Shows d b s p) (hplot : c.config.plotArea.isValid = true) :
    b.x.Proper ∧ b.y.Proper := by
  obtain ⟨b', hb', hproper⟩ := Scales.fit?_rat hplot h.nonempty c.showOutliers
  obtain rfl : b = b' := Except.ok.inj (h.fit.symm.trans hb')
  exact hproper

variable [Surface σ Rat]

theorem zoom_pos_after {c : Chart Rat σ} (h : 0 < c.zoom.factor) (ops : List (Operation Rat)) :
    0 < (c.after ops).zoom.factor := by
  refine after_induction (P := fun c => 0 < c.zoom.factor) (fun h hstep => ?_) h ops
  obtain he | he | ⟨delta, _, _, hdelta, -, -, he⟩ := hstep.zoom
  · rwa [he]
  · rw [he, Zoom.identity_factor]
    exact one_pos
  · rw [he, Zoom.andThen_factor]
    exact mul_pos (Zoom.validate_iff.1 hdelta) h

variable {c : Chart Rat σ} {d : Dataset Rat} {b s : Scales Rat} {p : Projection Rat}
  {delta : Zoom Rat} {plan : Zoom Rat × Projection Rat × Transition (Projection Rat) Rat}

/-- In exact arithmetic, every valid step is made. -/
theorem Shows.exists_zoomPlan? (h : c.Shows d b s p) (hc : c.config.Accepted)
    (hzoom : 0 < c.zoom.factor) (hdelta : delta.validate = .ok ()) :
    ∃ plan, c.zoomPlan? delta = some plan := by
  obtain ⟨e, hfails, -, -⟩ | hplan := h.zoomBy_cases hc.zoomDuration delta
  · obtain ⟨hx, hy⟩ := h.proper hc.plot
    have hpos : 0 < (c.zoom.andThen delta).factor :=
      mul_pos (Zoom.validate_iff.1 hdelta) hzoom
    cases hfails with
    | invalid he => cases hdelta.symm.trans he
    | rescale _ hbase he =>
      obtain rfl := Option.some.inj (h.base.symm.trans hbase)
      cases (b.zoomed?_eq hx hy hpos).symm.trans he
    | @build d' _ scales _ _ _ _ he =>
      obtain ⟨q, hq, -⟩ := Projection.ofPoints?_rat d'.points scales c.showOutliers
        c.config.xTickCount c.config.yTickCount
      cases hq.symm.trans he
  · exact hplan

/-- A zoom that is made is at the start of an animation from the markers that were shown. -/
theorem zoomBy_starts (hplan : c.zoomPlan? delta = some plan)
    (hduration : 0 < c.config.zoomDuration) :
    ∃ (a : Transition (Projection Rat) Rat) (shown : Projection Rat) (surface : σ),
      a.AtStart ∧ c.shown = some shown ∧ a.origin.markers = shown.markers ∧
      (c.zoomBy delta).2 = { c with
        zoom := c.zoom.andThen delta
        projection := some a.target
        animation := some a
        surface } := by
  obtain ⟨zoom, target, a⟩ := plan
  obtain ⟨d, base, p, shown, -, -, -, -, hshown, hz⟩ := zoomPlan?_eq_some hplan
  obtain ⟨previous, scales, start, -, rfl, -, -, hstart, ha⟩ := zoomStep?_eq_ok.1 hz
  obtain ⟨-, rfl⟩ := Transition.make?_eq_ok.1 ha
  have hatStart : (⟨start, target, c.config.zoomDuration, c.config.zoomEasing, 0.0⟩ :
      Transition (Projection Rat) Rat).AtStart := Transition.atStart hduration
  have hzoomed := zoomBy_planned hplan rfl
  simp only [hatStart.running, if_neg Bool.false_ne_true] at hzoomed
  exact ⟨_, shown, _, hatStart, hshown, (Projection.Start.of_rebased? hstart).markers,
    congrArg Prod.snd hzoomed⟩

/-- The first frame of a zoom has the circles and captions that were shown. -/
theorem Shows.body_zoomBy (h : c.Shows d b s p) (hplan : c.zoomPlan? delta = some plan)
    (hduration : 0 < c.config.zoomDuration) :
    (c.zoomBy delta).2.frame.body = c.frame.body := by
  obtain ⟨a, shown, surface, hstart, hshown, horigin, he⟩ := zoomBy_starts hplan hduration
  obtain ⟨s', hzoomed⟩ := h.zoomed hplan
  have hshows : (c.zoomBy delta).2.Shows d b s' plan.2.1 := by
    rw [zoomBy_some hplan]
    exact hzoomed.advance 0.0
  rw [he] at hshows ⊢
  obtain ⟨_, ⟨⟩, hlength, hframe⟩ := hshows.frame
  obtain ⟨shown', hshown', hlength', hframe'⟩ := h.frame
  obtain rfl : shown = shown' := Option.some.inj (hshown.symm.trans hshown')
  rw [hframe, hframe']
  change d.body c.config c.showOutliers a.current.markers = d.body c.config c.showOutliers _
  rw [hstart.current, Projection.blend_markers, length_blend] at hlength
  rw [hstart.current, Projection.blend_markers, horigin,
    blend_list_zero Marker.blend_zero (hlength'.trans hlength.symm)]

/-- Whether a zoom is made or not, the circles and captions are at first as they were. -/
theorem Consistent.body_zoomBy (h : c.Consistent) (hduration : 0 < c.config.zoomDuration)
    (delta : Zoom Rat) : (c.zoomBy delta).2.frame.body = c.frame.body := by
  cases hplan : c.zoomPlan? delta with
  | none => rw [zoomBy_none hplan]
  | some plan =>
    obtain hblank | ⟨d, b, s, p, hshows⟩ := h.1
    · cases (zoomPlan?_blank hblank.projection).symm.trans hplan
    · exact hshows.body_zoomBy hplan hduration

end Chart

end Scatter

/-! ## Toggles -/

namespace Overview

theorem Bar.blend_zero (a b : Bar Rat) : blend a b (0 : Rat) = a := by
  change Bar.mk (blend a.x b.x (0 : Rat)) (blend a.y b.y (0 : Rat))
    (blend a.width b.width (0 : Rat)) (blend a.height b.height (0 : Rat)) = a
  simp only [CourseCharts.blend_zero]

theorem LabelAnchor.blend_zero (a b : LabelAnchor Rat) : blend a b (0 : Rat) = a :=
  congrArg₂ LabelAnchor.mk (CourseCharts.blend_zero _ _) (CourseCharts.blend_zero _ _)

theorem PerCategory.blend_zero {β : Type} [Blend β Rat] (h : ∀ a b : β, blend a b (0 : Rat) = a)
    (p q : PerCategory β) : blend p q (0 : Rat) = p := by
  change PerCategory.mk (blend p.submissions q.submissions (0 : Rat))
    (blend p.snapshots q.snapshots (0 : Rat)) (blend p.launches q.launches (0 : Rat)) = p
  simp only [h]

theorem EntityGeometry.blend_zero (e e' : EntityGeometry Rat) : blend e e' (0 : Rat) = e :=
  congrArg₂ EntityGeometry.mk (PerCategory.blend_zero Bar.blend_zero _ _)
    (PerCategory.blend_zero LabelAnchor.blend_zero _ _)

namespace Chart

variable {σ : Type} [Surface σ Rat] {c : Chart Rat σ} {l : Layout Rat}

/-- A toggle is at the start of an animation from the bars that were shown. -/
theorem Shows.toggle_starts (h : c.Shows l) (hc : c.config.Usable)
    (hcounted : ∀ d ∈ c.data, d.Counted) (hduration : 0 < c.config.toggleDuration) :
    ∃ (a : Transition (List (EntityGeometry Rat)) Rat) (surface : σ),
      a.AtStart ∧ a.origin = c.shown ∧
      l.geometry? c.arrangement.toggled c.data = .ok a.target ∧
      c.toggle.2 = { c with
        presentation := c.presentation.toggleArrangement
        geometry := a.target
        animation := some a
        surface } := by
  obtain ⟨es, a, harrange⟩ := h.arrange?_isOk hc hcounted c.presentation.toggleArrangement
  obtain ⟨hes, ha⟩ := arrange?_eq_ok.1 harrange
  have htoggle := toggle_some h.layout harrange
  obtain ⟨-, rfl⟩ := Transition.make?_eq_ok.1 ha
  have hstart : (⟨c.shown, es, c.config.toggleDuration, c.config.toggleEasing, 0.0⟩ :
      Transition (List (EntityGeometry Rat)) Rat).AtStart := Transition.atStart hduration
  obtain ⟨surface, he⟩ := advance_some (c := { c with
    presentation := c.presentation.toggleArrangement
    geometry := es
    animation := some ⟨c.shown, es, c.config.toggleDuration, c.config.toggleEasing, 0.0⟩ })
    rfl 0.0
  rw [hstart.advance_zero, hstart.running, if_neg Bool.false_ne_true] at he
  exact ⟨_, surface, hstart, rfl, hes, htoggle.trans he⟩

/-- The first frame of a toggle is the one that was shown. -/
theorem Shows.frame_toggle (h : c.Shows l) (hc : c.config.Usable)
    (hcounted : ∀ d ∈ c.data, d.Counted) (hduration : 0 < c.config.toggleDuration) :
    c.toggle.2.frame = c.frame := by
  obtain ⟨a, surface, hstart, horigin, htarget, he⟩ := h.toggle_starts hc hcounted hduration
  have hlength : c.shown.length = a.target.length :=
    h.length_shown.trans (mapM_length htarget).symm
  have hcurrent : a.current = c.shown := by
    rw [hstart.current, horigin, blend_list_zero EntityGeometry.blend_zero hlength]
  rw [he]
  change c.frameOf a.current = c.frameOf c.shown
  rw [hcurrent]

/-- Without records there is nothing to see. -/
theorem Consistent.frame_toggle (h : c.Consistent) (hduration : 0 < c.config.toggleDuration) :
    c.toggle.2.frame = c.frame := by
  obtain hblank | ⟨l, hshows⟩ := h.shows
  · rw [toggle_none hblank.layout]
    simp only [frame, frameOf, hblank.layout]
  · exact hshows.frame_toggle h.usable h.counted hduration

end Chart

end Overview

/-! ## Runs -/

/-- **Animations start where the chart is shown.** In exact arithmetic and with animations of
    some duration, whatever was done with a chart before, be it at rest or on a way that was
    itself started in the middle of another one:
    the first frame after a zoom of a scatter chart has the circles and captions that were
    shown; every valid step on a projection is made, and then an animation from the markers
    that were shown is at its start, and every other step changes nothing;
    the first frame after a toggle of an overview chart is the one that was shown; with records,
    an animation from the bars that were shown to those of the other arrangement is at its
    start. -/
theorem animations_start_where_shown :
    (∀ {σ : Type} [Surface σ Rat] {surface : σ} {config : Scatter.Config Rat}
      {c : Scatter.Chart Rat σ}, Scatter.Chart.make? surface config = .ok c →
      0 < config.zoomDuration → ∀ (ops : List (Scatter.Operation Rat)) (delta : Zoom Rat),
      let before := c.after ops
      let after := (before.zoomBy delta).2
      after.frame.body = before.frame.body ∧
      (delta.validate = .ok () ∧ before.projection.isSome = true → ∃ a shown,
        a.AtStart ∧ before.shown = some shown ∧ a.origin.markers = shown.markers ∧
        after.zoom = before.zoom.andThen delta ∧ after.projection = some a.target ∧
        after.animation = some a) ∧
      (¬ (delta.validate = .ok () ∧ before.projection.isSome = true) → after = before)) ∧
    (∀ {σ : Type} [Surface σ Rat] {surface : σ} {config : Overview.Config Rat}
      {c : Overview.Chart Rat σ}, Overview.Chart.make? surface config = .ok c →
      0 < config.toggleDuration → ∀ ops : List (Overview.Operation Rat),
      (∀ op ∈ ops, op.Counted) →
      let before := c.after ops
      let after := before.toggle.2
      after.frame = before.frame ∧
      (before.data ≠ [] → ∃ l a, before.layout = some l ∧ a.AtStart ∧ a.origin = before.shown ∧
        l.geometry? before.arrangement.toggled before.data = .ok a.target ∧
        after.arrangement = before.arrangement.toggled ∧ after.geometry = a.target ∧
        after.animation = some a)) := by
  constructor
  · intro σ _ surface config c hc hduration ops delta before after
    have hconfig : before.config = config := by
      rw [Scatter.Chart.config_after, (Scatter.Chart.make?_eq_ok.1 hc).2]
    rw [← hconfig] at hduration
    have hconsistent : before.Consistent := Scatter.Chart.consistent_after hc ops
    refine ⟨hconsistent.body_zoomBy hduration delta, ?_, ?_⟩
    · rintro ⟨hdelta, hprojection⟩
      have hzoom : 0 < before.zoom.factor := by
        refine Scatter.Chart.zoom_pos_after ?_ ops
        rw [(Scatter.Chart.make?_eq_ok.1 hc).2, Zoom.identity_factor]
        exact one_pos
      obtain hblank | ⟨d, b, s, p, hshows⟩ := hconsistent.1
      · rw [hblank.projection] at hprojection
        cases hprojection
      · obtain ⟨plan, hplan⟩ :=
          hshows.exists_zoomPlan? (Scatter.Chart.accepted_after hc ops) hzoom hdelta
        obtain ⟨a, shown, surface, hstart, hshown, horigin, he⟩ :=
          Scatter.Chart.zoomBy_starts hplan hduration
        exact ⟨a, shown, hstart, hshown, horigin, congrArg (·.zoom) he,
          congrArg (·.projection) he, congrArg (·.animation) he⟩
    · intro hnot
      refine Scatter.Chart.zoomBy_none ?_
      cases hplan : before.zoomPlan? delta with
      | none => rfl
      | some plan =>
        obtain ⟨_, _, p, _, hdelta, -, -, hp, -⟩ := Scatter.Chart.zoomPlan?_eq_some hplan
        exact absurd ⟨hdelta, by rw [hp]; rfl⟩ hnot
  · intro σ _ surface config c hc hduration ops hops before after
    have hconfig : before.config = config := by
      rw [Overview.Chart.config_after, (Overview.Chart.make?_eq_ok.1 hc).2]
    rw [← hconfig] at hduration
    have hconsistent : before.Consistent := Overview.Chart.consistent_after hc hops
    refine ⟨hconsistent.frame_toggle hduration, fun hdata => ?_⟩
    obtain hblank | ⟨l, hshows⟩ := hconsistent.shows
    · exact absurd hblank.data hdata
    · obtain ⟨a, surface, hstart, horigin, htarget, he⟩ :=
        hshows.toggle_starts hconsistent.usable hconsistent.counted hduration
      exact ⟨l, a, hshows.layout, hstart, horigin, htarget,
        congrArg (·.presentation.arrangement) he, congrArg (·.geometry) he,
        congrArg (·.animation) he⟩

/-- A zoom and a toggle, each in the middle of an animation. -/
theorem animations_start_where_shown_interrupted :
    (∃ c : Scatter.Chart Rat (HeadlessSurface Rat),
      Scatter.Chart.make? .initial Scatter.Config.standard = .ok c ∧
      let before := c.after [.render .threePoints, .zoomBy ⟨2, 0, 0⟩, .advance 100]
      before.animation.isSome = true ∧
        (before.zoomBy ⟨3, 5, -1⟩).2.frame.body = before.frame.body) ∧
    (∃ c : Overview.Chart Rat (HeadlessSurface Rat),
      Overview.Chart.make? .initial Overview.Config.standard = .ok c ∧
      let before := c.after [.render [⟨⟨"7"⟩, ⟨12, 4, 0⟩⟩] .user, .toggle, .advance 300]
      before.animation.isSome = true ∧ before.toggle.2.frame = before.frame) := by
  obtain ⟨hscatter, hoverview⟩ := animations_start_where_shown
  constructor
  · have hc := Scatter.Chart.make?_standard_rat (HeadlessSurface.initial : HeadlessSurface Rat)
    exact ⟨_, hc, by decide +kernel, (hscatter hc (by decide +kernel) _ _).1⟩
  · have hc := Overview.Chart.make?_standard_rat (HeadlessSurface.initial : HeadlessSurface Rat)
    have hcounted : ∀ d ∈ [(⟨⟨"7"⟩, ⟨12, 4, 0⟩⟩ : Overview.Datum)], d.Counted := by
      intro d hd k
      obtain rfl := List.mem_singleton.1 hd
      cases k <;> decide
    refine ⟨_, hc, by decide +kernel, (hoverview hc (by decide +kernel) _ ?_).1⟩
    simpa [Overview.Operation.Counted] using hcounted

end CourseCharts

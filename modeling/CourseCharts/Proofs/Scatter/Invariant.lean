/-
  CourseCharts — what holds of a scatter chart at any time.

  * a chart is `Blank`, or it `Shows` its data under its zoom, perhaps with an
    animation that `LeadsTo` what is shown;
  * `Consistent.step`: every operation keeps it so, also one that fails;
  * `representation_invariant`: so it is after every run.
-/
import CourseCharts.Proofs.Scatter.Projection
import CourseCharts.Proofs.Scatter.Run

namespace CourseCharts.Scatter

variable {α σ : Type} [Scalar α]

/-! ## The invariant -/

/-- The animation takes one marker per point and the ticks of `p` to their
    places in `p`. -/
structure LeadsTo (a : Transition (Projection α) α) (points : List (Point α))
    (p : Projection α) : Prop where
  timed : a.Timed
  target : a.target = p
  markers : a.origin.markers.length = points.length
  xTicks : a.origin.xTicks.map (·.value) = p.xTicks.map (·.value)
  yTicks : a.origin.yTicks.map (·.value) = p.yTicks.map (·.value)
  xPrecision : a.origin.xPrecision = p.xPrecision
  yPrecision : a.origin.yPrecision = p.yPrecision

namespace Chart

/-- Nothing is shown. -/
structure Blank (c : Chart α σ) : Prop where
  base : c.base = none
  zoom : c.zoom = .identity
  projection : c.projection = none
  animation : c.animation = none

/-- The data are shown on scales that fit them, under the zoom. -/
structure Shows (c : Chart α σ) (d : Dataset α) (b s : Scales α) (p : Projection α) : Prop where
  dataset : c.dataset = some d
  nonempty : d.points ≠ []
  base : c.base = some b
  fit : Scales.fit? d.points c.showOutliers c.config.plotArea = .ok b
  scales : b.zoomed? c.zoom = .ok s
  projection : c.projection = some p
  build : Projection.ofPoints? d.points s c.showOutliers c.config.xTickCount
    c.config.yTickCount = .ok p
  animation : ∀ a, c.animation = some a → LeadsTo a d.points p

/-- An animation that is kept has time left. -/
def Running (c : Chart α σ) : Prop := ∀ a, c.animation = some a → a.elapsed < a.duration

/-- What holds of a chart at any time. -/
def Consistent (c : Chart α σ) : Prop :=
  (c.Blank ∨ ∃ d b s p, c.Shows d b s p) ∧ c.Running

end Chart

/-! ## Steps -/

theorem Scales.zoomed?_identity [LawfulScalar α] (s : Scales α) :
    s.zoomed? .identity = .ok s := by
  have h : (Zoom.identity : Zoom α).isIdentity = true := by
    simp only [Zoom.isIdentity, Zoom.identity, LawfulScalar.beq_self LawfulScalar.finite_one,
      LawfulScalar.beq_self LawfulScalar.finite_zero, Bool.and_self]
  simp [zoomed?, h]

theorem LeadsTo.advance {a : Transition (Projection α) α} {points : List (Point α)}
    {p : Projection α} (h : LeadsTo a points p) (time : α) : LeadsTo (a.advance time) points p := by
  obtain ⟨timed, target, markers, xTicks, yTicks, xPrecision, yPrecision⟩ := h
  exact ⟨timed.advance time, by simpa, by simpa, by simpa, by simpa, by simpa, by simpa⟩

namespace Chart

/-- What is shown has one marker per point. -/
theorem Shows.length_markers {c : Chart α σ} {d : Dataset α} {b s : Scales α}
    {p shown : Projection α} (h : c.Shows d b s p) (hs : c.shown = some shown) :
    shown.markers.length = d.points.length := by
  have hp : p.markers.length = d.points.length := by
    rw [(Projection.Places.of_ofPoints? h.build).markers, List.length_map]
  cases ha : c.animation with
  | none =>
    rw [Chart.shown, ha, h.projection] at hs
    cases hs
    exact hp
  | some a =>
    rw [Chart.shown, ha] at hs
    cases hs
    rw [length_current_markers, (h.animation a ha).target, hp]

/-- A zoom that is made leaves the data on the same base scales. -/
theorem Shows.zoomed [LawfulScalar α] {c : Chart α σ} {d : Dataset α} {b s : Scales α}
    {p : Projection α} (h : c.Shows d b s p) {delta : Zoom α}
    {plan : Zoom α × Projection α × Transition (Projection α) α}
    (hplan : c.zoomPlan? delta = some plan) :
    ∃ s', (c.zoomed plan).Shows d b s' plan.2.1 := by
  obtain ⟨d', b', p', shown, -, hd, hb, hp, hshown, hz⟩ := zoomPlan?_eq_some hplan
  obtain rfl : d = d' := Option.some.inj (h.dataset.symm.trans hd)
  obtain rfl : b = b' := Option.some.inj (h.base.symm.trans hb)
  obtain ⟨zoom, target, a⟩ := plan
  obtain ⟨previous, s', start, -, rfl, hs', htarget, hstart, ha⟩ := zoomStep?_eq_ok.1 hz
  refine ⟨s', h.dataset, h.nonempty, h.base, h.fit, hs', rfl, htarget, ?_⟩
  -- the start has the ticks of the target, but the markers of what is shown
  intro a' ha'
  cases ha'
  have hrebased := Projection.Start.of_rebased? hstart
  have hmade := (Transition.make?_eq_ok.1 ha).2
  refine ⟨.of_make? ha, by rw [hmade], ?_, ?_, ?_, ?_, ?_⟩
  · rw [hmade]
    dsimp only
    rw [hrebased.markers, h.length_markers hshown]
  · rw [hmade]
    simp [hrebased.xTicks, AxisTick.at]
  · rw [hmade]
    simp [hrebased.yTicks, AxisTick.at]
  · rw [hmade]
    exact hrebased.xPrecision
  · rw [hmade]
    exact hrebased.yPrecision

variable [Surface σ α]

theorem Blank.advance {c : Chart α σ} (h : c.Blank) (time : α) : (c.advance time).2 = c :=
  advance_none h.animation time

theorem Shows.advance {c : Chart α σ} {d : Dataset α} {b s : Scales α}
    {p : Projection α} (h : c.Shows d b s p) (time : α) :
    (c.advance time).2.Shows d b s p := by
  have hanimation : ∀ a, (c.advance time).2.animation = some a → LeadsTo a d.points p := by
    intro a ha
    obtain ⟨a₀, ha₀, rfl, -⟩ := animation_of_advance ha
    exact (h.animation a₀ ha₀).advance time
  obtain ⟨_, _, he⟩ := c.advance_eq time
  rw [he] at hanimation ⊢
  exact ⟨h.dataset, h.nonempty, h.base, h.fit, h.scales, h.projection, h.build, hanimation⟩

/-- After a move of the clock, a finished animation is gone. -/
theorem Shows.running_advance [LawfulScalar α] {c : Chart α σ} {d : Dataset α}
    {b s : Scales α} {p : Projection α} (h : c.Shows d b s p) (time : α) :
    (c.advance time).2.Running := by
  intro a ha
  obtain ⟨a₀, ha₀, rfl, hf⟩ := animation_of_advance ha
  exact ((h.animation a₀ ha₀).timed.advance time).elapsed_lt hf

theorem advance_dataset (c : Chart α σ) (time : α) :
    (c.advance time).2.dataset = c.dataset := by
  obtain ⟨_, _, he⟩ := c.advance_eq time
  rw [he]

/-- A zoom keeps the data. -/
theorem zoomBy_dataset (c : Chart α σ) (delta : Zoom α) :
    (c.zoomBy delta).2.dataset = c.dataset := by
  cases hplan : c.zoomPlan? delta with
  | none => rw [zoomBy_none hplan]
  | some plan =>
    rw [zoomBy_some hplan, advance_dataset]
    rfl

theorem redraw_consistent [LawfulScalar α] (c : Chart α σ) : c.redraw.2.Consistent := by
  obtain ⟨surface, he⟩ | ⟨d, base, p, surface, hd, hpoints, hfit, he⟩ := c.redraw_cases
  · rw [he]
    exact ⟨.inl ⟨rfl, rfl, rfl, rfl⟩, fun a ha => nomatch ha⟩
  · rw [he]
    obtain ⟨hbase, hp⟩ := fit?_eq_ok.1 hfit
    refine ⟨.inr ⟨d, base, base, p, ?_⟩, fun a ha => nomatch ha⟩
    exact ⟨hd, hpoints, rfl, hbase, base.zoomed?_identity, rfl, hp, fun a ha => nomatch ha⟩

end Chart

/-- Every operation leaves a chart consistent. -/
theorem Chart.Consistent.step [LawfulScalar α] [Surface σ α] {c c' : Chart α σ}
    {toggles zooms : Bool} (h : c.Consistent) (hstep : Step c toggles zooms c') :
    c'.Consistent := by
  obtain ⟨hc, hrunning⟩ := h
  cases hstep with
  | idle => exact ⟨hc, hrunning⟩
  | redrawn dataset => exact Chart.redraw_consistent _
  | toggled => exact Chart.redraw_consistent _
  | advanced time =>
    obtain hblank | ⟨d, b, s, p, hshows⟩ := hc
    · rw [hblank.advance time]
      exact ⟨.inl hblank, hrunning⟩
    · exact ⟨.inr ⟨d, b, s, p, hshows.advance time⟩, hshows.running_advance time⟩
  | zoomed hplan =>
    obtain hblank | ⟨d, b, s, p, hshows⟩ := hc
    · obtain ⟨_, _, p, _, _, _, _, hp, _⟩ := Chart.zoomPlan?_eq_some hplan
      rw [hblank.projection] at hp
      cases hp
    · obtain ⟨s', hzoomed⟩ := hshows.zoomed hplan
      exact ⟨.inr ⟨d, b, s', _, hzoomed.advance 0.0⟩, hzoomed.running_advance 0.0⟩

section
variable [Surface σ α] {c c' : Chart α σ} {toggles zooms : Bool}

theorem Step.config (h : Step c toggles zooms c') : c'.config = c.config := by
  cases h with
  | idle => rfl
  | redrawn dataset => exact (Chart.redraw_keeps _).1
  | toggled => exact (Chart.redraw_keeps _).1
  | advanced time =>
    obtain ⟨_, _, he⟩ := c.advance_eq time
    rw [he]
  | zoomed hplan =>
    obtain ⟨_, _, he⟩ := (c.zoomed _).advance_eq 0.0
    rw [he]
    rfl

theorem Step.showOutliers (h : Step c toggles zooms c') :
    c'.showOutliers = (c.showOutliers ^^ toggles) := by
  unfold Chart.showOutliers
  cases h with
  | idle => simp
  | redrawn dataset => rw [(Chart.redraw_keeps _).2.1, Bool.xor_false]
  | toggled =>
    rw [(Chart.redraw_keeps _).2.1]
    simp [Presentation.toggleOutliers]
  | advanced time =>
    obtain ⟨_, _, he⟩ := c.advance_eq time
    rw [he, Bool.xor_false]
  | zoomed hplan =>
    obtain ⟨_, _, he⟩ := (c.zoomed _).advance_eq 0.0
    rw [he, Bool.xor_false]
    rfl

end

/-! ## Runs -/

section
variable [Surface σ α] {surface : σ} {config : Config α} {c : Chart α σ}

theorem Chart.consistent_after [LawfulScalar α] (hc : Chart.make? surface config = .ok c)
    (ops : List (Operation α)) : (c.after ops).Consistent := by
  obtain ⟨-, rfl⟩ := Chart.make?_eq_ok.1 hc
  exact Chart.after_induction (fun h hs => h.step hs)
    ⟨.inl ⟨rfl, rfl, rfl, rfl⟩, fun a ha => nomatch ha⟩ ops

theorem Chart.config_after (c : Chart α σ) (ops : List (Operation α)) :
    (c.after ops).config = c.config :=
  Chart.after_induction (fun h hs => hs.config.trans h) rfl ops

/-- Outliers are shown after every other toggle. -/
theorem Chart.showOutliers_after (c : Chart α σ) (ops : List (Operation α)) :
    (c.after ops).showOutliers =
      (c.showOutliers ^^ decide (ops.countP (·.togglesOutliers) % 2 = 1)) := by
  induction ops using List.reverseRecOn with
  | nil => simp
  | append_singleton ops op ih =>
    rw [after_concat, (op.step _).showOutliers, ih, List.countP_append, List.countP_singleton,
      Bool.xor_assoc]
    congr 1
    cases op.togglesOutliers with
    | false => simp
    | true =>
      rw [if_pos rfl]
      rcases Nat.mod_two_eq_zero_or_one (ops.countP (·.togglesOutliers)) with h | h
      · simp [h, Nat.add_mod]
      · simp [h, Nat.add_mod]

end

/-- **What a scatter chart holds.** After any operations on a new chart,
    whatever they returned and whatever the surface refused:
    there is a projection exactly if there are base scales; then they fit the
    points, of which there is at least one, and the projection shows the points
    on the base scales under the zoom;
    without a projection nothing is zoomed or animated;
    an animation leads to the projection, has time left, and starts with one
    marker per point and with the ticks of the projection;
    and outliers are shown after every other toggle. -/
theorem representation_invariant {σ : Type} [Surface σ Float] {surface : σ}
    {config : Config Float} {c : Chart Float σ} (hc : Chart.make? surface config = .ok c)
    (ops : List (Operation Float)) :
    let c' := c.after ops
    c'.projection.isSome = c'.base.isSome ∧
    (∀ p, c'.projection = some p → ∃ d base scales,
      c'.dataset = some d ∧ d.points ≠ [] ∧ c'.base = some base ∧
      Scales.fit? d.points c'.showOutliers config.plotArea = .ok base ∧
      base.zoomed? c'.zoom = .ok scales ∧
      Projection.ofPoints? d.points scales c'.showOutliers config.xTickCount config.yTickCount
        = .ok p) ∧
    (c'.projection = none → c'.zoom = .identity ∧ c'.animation = none) ∧
    (∀ a, c'.animation = some a →
      c'.projection = some a.target ∧ a.elapsed < a.duration ∧
      (∃ d, c'.dataset = some d ∧ a.origin.markers.length = d.points.length) ∧
      a.origin.xTicks.map (·.value) = a.target.xTicks.map (·.value) ∧
      a.origin.yTicks.map (·.value) = a.target.yTicks.map (·.value) ∧
      a.origin.xPrecision = a.target.xPrecision ∧ a.origin.yPrecision = a.target.yPrecision) ∧
    c'.showOutliers = decide (ops.countP (·.togglesOutliers) % 2 = 1) := by
  intro c'
  obtain ⟨hc', hrunning⟩ : c'.Consistent := Chart.consistent_after hc ops
  have hconfig : c'.config = config := by
    rw [Chart.config_after, (Chart.make?_eq_ok.1 hc).2]
  have hoff : c.showOutliers = false := by rw [(Chart.make?_eq_ok.1 hc).2]; rfl
  have hparity : c'.showOutliers = decide (ops.countP (·.togglesOutliers) % 2 = 1) := by
    rw [Chart.showOutliers_after, hoff, Bool.false_xor]
  obtain hblank | ⟨d, base, scales, p, hshows⟩ := hc'
  · refine ⟨?_, ?_, fun _ => ⟨hblank.zoom, hblank.animation⟩, ?_, hparity⟩
    · rw [hblank.projection, hblank.base]
      rfl
    · intro p hp
      cases hblank.projection.symm.trans hp
    · intro a ha
      cases hblank.animation.symm.trans ha
  · refine ⟨?_, ?_, ?_, ?_, hparity⟩
    · rw [hshows.projection, hshows.base]
      rfl
    · intro p' hp'
      obtain rfl : p = p' := Option.some.inj (hshows.projection.symm.trans hp')
      have hfit := hshows.fit
      have hbuild := hshows.build
      rw [hconfig] at hfit hbuild
      exact ⟨d, base, scales, hshows.dataset, hshows.nonempty, hshows.base, hfit,
        hshows.scales, hbuild⟩
    · intro hnone
      cases hshows.projection.symm.trans hnone
    · intro a ha
      have hleads := hshows.animation a ha
      obtain rfl := hleads.target
      exact ⟨hshows.projection, hrunning a ha, ⟨d, hshows.dataset, hleads.markers⟩,
        hleads.xTicks, hleads.yTicks, hleads.xPrecision, hleads.yPrecision⟩

theorem Chart.dataset_after_zoom [Surface σ α] (c : Chart α σ) (d : Dataset α) (delta : Zoom α)
    (time : α) : (c.after [.render d, .toggleOutliers, .zoomBy delta, .advance time]).dataset =
      some d :=
  (advance_dataset _ _).trans ((zoomBy_dataset _ _).trans
    ((redraw_keeps _).2.2.trans (redraw_keeps _).2.2))

/-- Two points so far apart that the axes have no ticks; the second one is an outlier and has
    no caption. -/
def Dataset.farApart : Dataset Float where
  points := [⟨⟨"17"⟩, -8.5e307, -8.5e307, none, "ann", "tour"⟩,
    ⟨⟨"23"⟩, 8.5e307, 8.5e307, some 8e307, "", "tour"⟩]
  xAxis := ⟨"Score", "%"⟩
  yAxis := ⟨"Time", ""⟩
  grouping := .project

/-- In the middle of a zoom that changes nothing, with outliers shown: the points are on the scales
    that fit them, and the animation leads there from two markers. -/
theorem representation_invariant_far_apart :
    ∃ c, Chart.make? (HeadlessSurface.initial : HeadlessSurface Float) Config.standard = .ok c ∧
      let c' := c.after [.render .farApart, .toggleOutliers, .zoomBy .identity, .advance 250.0]
      let points : List (Point Float) := Dataset.farApart.points
      c'.projection.isSome = true ∧ c'.base.isSome = true ∧ c'.showOutliers = true ∧
      (∃ p base scales, c'.projection = some p ∧ c'.base = some base ∧
        Scales.fit? points true (Config.standard : Config Float).plotArea = .ok base ∧
        base.zoomed? c'.zoom = .ok scales ∧
        Projection.ofPoints? points scales true (Config.standard : Config Float).xTickCount
          (Config.standard : Config Float).yTickCount = .ok p) ∧
      ∃ a, c'.animation = some a ∧ c'.projection = some a.target ∧ a.elapsed < a.duration ∧
        a.origin.markers.length = 2 ∧
        a.origin.xTicks.map (·.value) = a.target.xTicks.map (·.value) ∧
        a.origin.yTicks.map (·.value) = a.target.yTicks.map (·.value) ∧
        a.origin.xPrecision = a.target.xPrecision ∧ a.origin.yPrecision = a.target.yPrecision := by
  have hc := Chart.make?_standard (HeadlessSurface.initial : HeadlessSurface Float)
  refine ⟨_, hc, ?_⟩
  intro c' points
  obtain ⟨hsome, hfits, -, hleads, hparity⟩ := representation_invariant hc
    [.render .farApart, .toggleOutliers, .zoomBy .identity, .advance 250.0]
  have hshown : c'.showOutliers = true := hparity
  have hanimated : c'.animation.isSome = true := by decide +kernel
  have hdataset : c'.dataset = some .farApart := Chart.dataset_after_zoom ..
  obtain ⟨a, ha⟩ := Option.isSome_iff_exists.1 hanimated
  obtain ⟨hp, htime, ⟨d, hd, hmarkers⟩, hticks⟩ := hleads a ha
  obtain ⟨d', base, scales, hd', -, hbase, hfit, hscales, hbuild⟩ := hfits _ hp
  obtain rfl : d = .farApart := Option.some.inj (hd.symm.trans hdataset)
  obtain rfl : d' = .farApart := Option.some.inj (hd'.symm.trans hdataset)
  rw [hshown] at hfit hbuild
  have hprojection : c'.projection.isSome = true := by rw [hp]; rfl
  exact ⟨hprojection, hsome.symm.trans hprojection, hshown,
    ⟨_, base, scales, hp, hbase, hfit, hscales, hbuild⟩, a, ha, hp, htime, hmarkers, hticks⟩

end CourseCharts.Scatter

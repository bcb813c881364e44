/-
  CourseCharts — one zoom step.

  A zoom step goes through several computations that can fail, and it changes
  the chart only when the last one has succeeded.

  * `Chart.ZoomFails` lists why a step is not made; the start of its animation
    is not among them (`Projection.rebased?_isOk`);
  * `Chart.zoomBy_planned`: a step that is made changes the zoom, the
    projection and the animation, and draws one frame;
  * `zoom_is_all_or_nothing`: there is no third outcome.
-/
import CourseCharts.Proofs.Scatter.Config
import CourseCharts.Proofs.Scatter.Display
import CourseCharts.Proofs.Scatter.Surfaces

namespace CourseCharts

/-- An animation is over at its start exactly if it has no duration. -/
theorem Transition.isFinished_start {τ : Type} {origin target : τ} {duration : Float}
    {easing : Easing} (h : Requirement.nonnegative.holds duration = true) :
    (⟨origin, target, duration, easing, 0.0⟩ : Transition τ Float).isFinished
      = (duration == 0.0) := by
  have hle : (0.0 : Float) ≤ duration := of_decide_eq_true (Bool.and_eq_true_iff.1 h).2
  rw [Bool.eq_iff_iff]
  constructor
  · intro hf
    exact Double.beq_of_le (of_decide_eq_true hf) hle
  · intro heq
    exact decide_eq_true (Double.le_of_beq heq)

namespace Scatter

variable {α σ : Type} [Scalar α]

/-- The way to a projection of points can start on any scales: its ticks are finite. -/
theorem Projection.rebased?_isOk {points : List (Point α)} {s : Scales α} {showOutliers : Bool}
    {xCount yCount : Nat} {p : Projection α}
    (h : ofPoints? points s showOutliers xCount yCount = .ok p) (shown : List (Marker α))
    (previous : Scales α) : ∃ start, p.rebased? shown previous = .ok start := by
  simp only [ofPoints?, bind_eq_ok, pure_eq_ok, markers?_eq_ok, ticks?_eq_ok] at h
  obtain ⟨_, -, _, ⟨hx, rfl⟩, _, ⟨hy, rfl⟩, rfl⟩ := h
  have hvalues {s : LinearScale α} {values : List α} :
      (values.map (AxisTick.at s)).map (·.value) = values := by
    simp [AxisTick.at, Function.comp_def]
  simp only [rebased?, bind_eq_ok, pure_eq_ok, ticks?_eq_ok, hvalues]
  exact ⟨_, _, ⟨hx, rfl⟩, _, ⟨hy, rfl⟩, rfl⟩

namespace Chart

/-! ## Steps that are not made -/

/-- Why a zoom step is not made. -/
inductive ZoomFails (c : Chart α σ) (delta : Zoom α) (e : ChartError) : Prop where
  /-- The step is not valid. -/
  | invalid : delta.validate = .error e → ZoomFails c delta e
  /-- There are no scales under the composed zoom. -/
  | rescale {base : Scales α} : delta.validate = .ok () → c.base = some base →
    base.zoomed? (c.zoom.andThen delta) = .error e → ZoomFails c delta e
  /-- A point or a tick has no place on these scales. -/
  | build {d : Dataset α} {base scales : Scales α} : delta.validate = .ok () →
    c.dataset = some d → c.base = some base →
    base.zoomed? (c.zoom.andThen delta) = .ok scales →
    Projection.ofPoints? d.points scales c.showOutliers c.config.xTickCount
      c.config.yTickCount = .error e → ZoomFails c delta e

section
variable {c : Chart α σ} {d : Dataset α} {b s : Scales α} {p : Projection α} {delta : Zoom α}

/-- Once there is a projection to lead to, nothing is left that can fail. -/
theorem Shows.zoomFails (h : c.Shows d b s p)
    (hduration : Requirement.nonnegative.holds c.config.zoomDuration = true)
    (hdelta : delta.validate = .ok ()) {shown : List (Marker α)} {e : ChartError}
    (he : c.zoomStep? delta d b shown = .error e) : c.ZoomFails delta e := by
  simp only [zoomStep?, h.scales] at he
  cases hscales : b.zoomed? (c.zoom.andThen delta) with
  | error e' =>
    rw [hscales] at he
    cases he
    exact .rescale hdelta h.base hscales
  | ok scales =>
    rw [hscales] at he
    cases htarget : Projection.ofPoints? d.points scales c.showOutliers c.config.xTickCount
        c.config.yTickCount with
    | error e' =>
      simp only [bind, Except.bind, htarget] at he
      cases he
      exact .build hdelta h.dataset h.base hscales htarget
    | ok target =>
      obtain ⟨start, hstart⟩ := Projection.rebased?_isOk htarget shown s
      have ha : Transition.make? start target c.config.zoomDuration c.config.zoomEasing = .ok _ :=
        Transition.make?_eq_ok.2 ⟨hduration, rfl⟩
      simp [bind, Except.bind, htarget, hstart, ha, pure, Except.pure] at he

variable [Surface σ α]

/-- A step on data that are shown fails, or is planned. -/
theorem Shows.zoomBy_cases (h : c.Shows d b s p)
    (hduration : Requirement.nonnegative.holds c.config.zoomDuration = true) (delta : Zoom α) :
    (∃ e, c.ZoomFails delta e ∧ c.zoomPlan? delta = none ∧ c.zoomBy delta = (.error e, c)) ∨
      ∃ plan, c.zoomPlan? delta = some plan := by
  obtain ⟨shown, hs, -, -⟩ := h.frame
  cases hdelta : delta.validate with
  | error e =>
    exact .inl ⟨e, .invalid hdelta, by simp [zoomPlan?, hdelta], by simp [zoomBy, hdelta]⟩
  | ok =>
    cases hz : c.zoomStep? delta d b shown.markers with
    | error e =>
      refine .inl ⟨e, h.zoomFails hduration hdelta hz, ?_, ?_⟩
      · simp [zoomPlan?, hdelta, h.dataset, h.base, h.projection, hs, hz, Except.toOption]
      · simp [zoomBy, hdelta, h.dataset, h.base, h.projection, hs, hz]
    | ok plan =>
      refine .inr ⟨plan, ?_⟩
      simp [zoomPlan?, hdelta, h.dataset, h.base, h.projection, hs, hz, Except.toOption]

/-- Without a projection a valid step does nothing. -/
theorem zoomBy_blank (hp : c.projection = none) (hdelta : delta.validate = .ok ()) :
    c.zoomBy delta = (.ok (), c) := by
  simp [zoomBy, hdelta, hp]

omit [Surface σ α] in
theorem zoomPlan?_blank (hp : c.projection = none) : c.zoomPlan? delta = none := by
  unfold zoomPlan?
  split
  next hp' _ => cases hp.symm.trans hp'
  next => rfl

theorem calls_unplanned (h : c.zoomPlan? delta = none) :
    (Operation.zoomBy delta).calls c = [] := by
  let recorder : Recorder σ α := ⟨c.surface, []⟩
  have hplan : (c.on recorder).zoomPlan? delta = none := h
  change ((c.on recorder).zoomBy delta).2.surface.calls = []
  rw [zoomBy_none hplan]
  rfl

end

/-! ## Steps that are made -/

section
variable [Surface σ α] {c : Chart α σ} {delta : Zoom α}
  {plan : Zoom α × Projection α × Transition (Projection α) α}

/-- A step that is made draws the start of its animation, and nothing else. -/
theorem zoomBy_planned (h : c.zoomPlan? delta = some plan) (hstart : plan.2.2.elapsed = 0.0) :
    let answer := Surface.draw (c.frameOf plan.2.2.current) c.surface
    c.zoomBy delta = (answer.1, { c with
      zoom := plan.1
      projection := some plan.2.1
      animation := if plan.2.2.isFinished then none else some plan.2.2
      surface := answer.2 }) := by
  obtain ⟨zoom, target, a⟩ := plan
  have hclock : a.advance 0.0 = a := by
    rw [← hstart]
    exact a.advance_elapsed
  have hunit (b : Bool) (r : Except ChartError Unit) :
      (r.map fun _ => b).map (fun _ => ()) = r := by
    cases r <;> rfl
  rw [zoomBy_eq h, advance_draw rfl, hclock]
  exact Prod.ext (hunit _ _) rfl

theorem calls_planned (h : c.zoomPlan? delta = some plan) (hstart : plan.2.2.elapsed = 0.0) :
    (Operation.zoomBy delta).calls c =
      [(c.frameOf plan.2.2.current,
        (Surface.draw (c.frameOf plan.2.2.current) c.surface).1)] := by
  let recorder : Recorder σ α := ⟨c.surface, []⟩
  have hplan : (c.on recorder).zoomPlan? delta = some plan := h
  change ((c.on recorder).zoomBy delta).2.surface.calls = _
  rw [zoomBy_planned hplan hstart]
  rfl

end

end Chart

/-- The configuration of a chart stays as it was accepted. -/
theorem Chart.accepted_after {α σ : Type} [Scalar α] [Surface σ α] {surface : σ}
    {config : Config α} {c : Chart α σ} (hc : Chart.make? surface config = .ok c)
    (ops : List (Operation α)) : (c.after ops).config.Accepted := by
  obtain ⟨hvalid, rfl⟩ := Chart.make?_eq_ok.1 hc
  rw [Chart.config_after]
  exact Config.validate_eq_ok.1 hvalid

/-- **A zoom step is all or nothing.** Whatever was done with a chart before, a zoom step on it
    does one of two things.
    Either it draws nothing and leaves the chart as it was: with an error if the step is not
    valid or the composed zoom leaves no scales or no places on them, and without an error
    only if there is no projection.
    Or it changes all there is to change, to the composed zoom, the projection under it and an
    animation at its start, which is not kept if it has no duration; and it draws one frame,
    the first one of the animation, and fails exactly if the surface refuses that frame. -/
theorem zoom_is_all_or_nothing {σ : Type} [Surface σ Float] {surface : σ}
    {config : Config Float} {c : Chart Float σ} (hc : Chart.make? surface config = .ok c)
    (ops : List (Operation Float)) (delta : Zoom Float) :
    let c' := c.after ops
    let zoom := c'.zoom.andThen delta
    ((Operation.zoomBy delta).calls c' = [] ∧
      ((∃ e, c'.ZoomFails delta e ∧ c'.zoomBy delta = (.error e, c')) ∨
        (delta.validate = .ok () ∧ c'.projection = none ∧ c'.zoomBy delta = (.ok (), c')))) ∨
    (∃ d base previous scales target shown start frame,
      delta.validate = .ok () ∧ c'.dataset = some d ∧ c'.base = some base ∧
      c'.shown = some shown ∧
      base.zoomed? c'.zoom = .ok previous ∧ base.zoomed? zoom = .ok scales ∧
      Projection.ofPoints? d.points scales c'.showOutliers config.xTickCount config.yTickCount
        = .ok target ∧
      target.rebased? shown.markers previous = .ok start ∧
      let a : Transition (Projection Float) Float :=
        ⟨start, target, config.zoomDuration, config.zoomEasing, 0.0⟩
      let answer := Surface.draw frame c'.surface
      frame = d.frame config c'.showOutliers a.current ∧
      (Operation.zoomBy delta).calls c' = [(frame, answer.1)] ∧
      c'.zoomBy delta = (answer.1, { c' with
        zoom
        projection := some target
        animation := if config.zoomDuration == 0.0 then none else some a
        surface := answer.2 })) := by
  intro c' zoom
  have hconfig : c'.config = config := by
    rw [Chart.config_after, (Chart.make?_eq_ok.1 hc).2]
  have hduration := (Chart.accepted_after hc ops).zoomDuration
  obtain ⟨hblank | ⟨d, base, previous, p, hshows⟩, -⟩ := Chart.consistent_after hc ops
  · have hp : c'.projection = none := hblank.projection
    have hplan : c'.zoomPlan? delta = none := Chart.zoomPlan?_blank hp
    have hcalls := Chart.calls_unplanned hplan
    cases hdelta : delta.validate with
    | error e =>
      exact .inl ⟨hcalls, .inl ⟨e, .invalid hdelta, by simp [Chart.zoomBy, hdelta]⟩⟩
    | ok => exact .inl ⟨hcalls, .inr ⟨rfl, hp, Chart.zoomBy_blank hp hdelta⟩⟩
  · obtain ⟨e, hfails, hplan, he⟩ | ⟨⟨zoom', target, a⟩, hplan⟩ :=
      hshows.zoomBy_cases hduration delta
    · exact .inl ⟨Chart.calls_unplanned hplan, .inl ⟨e, hfails, he⟩⟩
    · -- the plan holds what the step computes
      obtain ⟨d', base', p', shown, hdelta, hd, hb, -, hshown, hz⟩ :=
        Chart.zoomPlan?_eq_some hplan
      obtain ⟨previous, scales, start, hprevious, rfl, hscales, htarget, hstart, ha⟩ :=
        Chart.zoomStep?_eq_ok.1 hz
      obtain ⟨-, rfl⟩ := Transition.make?_eq_ok.1 ha
      have hframe (q : Projection Float) :
          Chart.frameOf c' q = d'.frame config c'.showOutliers q := by
        rw [Chart.frameOf, hd, hconfig]
      have hcalls := Chart.calls_planned hplan rfl
      have hzoomed := Chart.zoomBy_planned hplan rfl
      rw [hframe] at hcalls hzoomed
      rw [Transition.isFinished_start hduration] at hzoomed
      subst hconfig
      exact .inr ⟨d', base', previous, scales, target, shown, start, _, hdelta, hd, hb, hshown,
        hprevious, hscales, htarget, hstart, rfl, hcalls, hzoomed⟩

/-- Between points this far apart a step that only zooms in has no places to lead to, and one
    that changes nothing is still animated. -/
theorem zoom_is_all_or_nothing_far_apart :
    ∃ c, Chart.make? (HeadlessSurface.initial : HeadlessSurface Float) Config.standard = .ok c ∧
      let c' := c.after [.render .farApart]
      (∃ e, c'.ZoomFails ⟨2.0, 0.0, 0.0⟩ e ∧ c'.zoomBy ⟨2.0, 0.0, 0.0⟩ = (.error e, c')) ∧
        ∃ a, (c'.zoomBy .identity).2.animation = some a ∧ a.elapsed = 0.0 := by
  have hc := Chart.make?_standard (HeadlessSurface.initial : HeadlessSurface Float)
  refine ⟨_, hc, ?_, ?_⟩
  · obtain ⟨-, h | ⟨-, -, hok⟩⟩ | ⟨_, _, _, _, _, _, _, _, -, -, -, -, -, -, -, -, -, hcalls, -⟩ :=
      zoom_is_all_or_nothing hc [.render .farApart] ⟨2.0, 0.0, 0.0⟩
    · exact h
    · have : (Chart.zoomBy _ _).1.isOk = true := congrArg (·.1.isOk) hok
      exact absurd this (by decide +kernel)
    · have : (Operation.calls _ _).length = 1 := congrArg List.length hcalls
      exact absurd this (by decide +kernel)
  · obtain ⟨hcalls, -⟩ | ⟨_, _, _, _, _, _, _, _, -, -, -, -, -, -, -, -, -, -, hzoomed⟩ :=
      zoom_is_all_or_nothing hc [.render .farApart] .identity
    · have : (Operation.calls _ _).length = 0 := congrArg List.length hcalls
      exact absurd this (by decide +kernel)
    · exact ⟨_, congrArg (·.2.animation) hzoomed, rfl⟩

end Scatter

end CourseCharts

/-
  CourseCharts — runs of a scatter chart.

  A host works with a chart by a sequence of operations, whatever they return
  and whatever the surface refuses.

  * `Operation.perform` is one operation, `Chart.after` the chart after some;
  * scatter charts are `Animated`, so that the clocks of their animations are
    known to move as in all such charts;
  * `Chart.zoomPlan?` is what a zoom leads to, if it is made at all;
  * `Step` lists what an operation can do to a chart: nothing, draw it from
    scratch, move the clock of its animation, or zoom it; `Operation.step`
    says that it does nothing else.
-/
import CourseCharts.Proofs.Animated
import CourseCharts.Proofs.Checks
import CourseCharts.Scatter.Chart

namespace CourseCharts.Scatter

/-! ## Operations -/

/-- What a host does with a chart. -/
inductive Operation (α : Type) where
  | render (dataset : Dataset α)
  | renderPayload (response : Json.Value) (grouping : Grouping)
  | clear
  | toggleOutliers
  | handle (input : UserInput)
  | zoomBy (delta : Zoom α)
  | advance (time : α)
  | finish

namespace Operation

/-- Whether the operation shows or hides outliers. -/
def togglesOutliers {α : Type} : Operation α → Bool
  | toggleOutliers => true
  | handle .outlierCheckbox => true
  | _ => false

variable {α σ : Type} [Scalar α] [Surface σ α]

/-- The result of an operation, with the flag that some of them give, and the
    chart after it. -/
def perform (op : Operation α) (c : Chart α σ) :
    Except ChartError (Option Bool) × Chart α σ :=
  match op with
  | render dataset => silent (c.render dataset)
  | renderPayload response grouping => silent (c.renderPayload response grouping)
  | clear => silent c.clear
  | toggleOutliers => flagged c.toggleOutliers
  | handle input => silent (c.handle input)
  | zoomBy delta => silent (c.zoomBy delta)
  | advance time => flagged (c.advance time)
  | finish => silent c.finish
where
  silent (r : Except ChartError Unit × Chart α σ) := (r.1.map fun _ => none, r.2)
  flagged (r : Except ChartError Bool × Chart α σ) := (r.1.map some, r.2)

end Operation

namespace Chart

instance {α : Type} [Scalar α] : Animated (Chart α) α (Projection α) where
  surface := Chart.surface
  animation := Chart.animation
  update c a t := ⟨t, c.config, c.presentation, c.dataset, c.base, c.zoom, c.projection, a⟩
  frameAt c a := c.frameOf a.current
  surface_update _ _ _ := rfl
  animation_update _ _ _ := rfl
  frameAt_update _ _ _ := rfl
  update_update _ _ _ _ _ := rfl
  update_self _ := rfl

variable {α σ : Type} [Scalar α]

theorem make?_eq_ok {surface : σ} {config : Config α} {c : Chart α σ} :
    make? surface config = .ok c ↔ config.validate = .ok () ∧ c =
      ⟨surface, config, .standard, none, none, .identity, none, none⟩ := by
  simp only [make?, bind_eq_ok, pure_eq_ok]
  constructor
  · rintro ⟨u, hu, rfl⟩
    exact ⟨hu, rfl⟩
  · rintro ⟨hu, rfl⟩
    exact ⟨(), hu, rfl⟩

/-- The chart with the default configuration. -/
theorem make?_standard {σ : Type} (surface : σ) :
    make? surface (Config.standard : Config Float) =
      .ok ⟨surface, .standard, .standard, none, none, .identity, none, none⟩ := by
  have hvalid : (Config.standard : Config Float).validate = .ok () := by rfl
  exact make?_eq_ok.2 ⟨hvalid, rfl⟩

/-- The same in exact arithmetic. -/
theorem make?_standard_rat {σ : Type} (surface : σ) :
    make? surface (Config.standard : Config Rat) =
      .ok ⟨surface, .standard, .standard, none, none, .identity, none, none⟩ := by
  have hvalid : (Config.standard : Config Rat).validate = .ok () := by decide +kernel
  exact make?_eq_ok.2 ⟨hvalid, rfl⟩

theorem fit?_eq_ok {c : Chart α σ} {d : Dataset α} {base : Scales α} {p : Projection α} :
    c.fit? d = .ok (base, p) ↔
      Scales.fit? d.points c.showOutliers c.config.plotArea = .ok base ∧
      Projection.ofPoints? d.points base c.showOutliers c.config.xTickCount
        c.config.yTickCount = .ok p := by
  simp only [fit?, bind_eq_ok, pure_eq_ok, Prod.mk.injEq]
  constructor
  · rintro ⟨base, hbase, p, hp, rfl, rfl⟩
    exact ⟨hbase, hp⟩
  · rintro ⟨hbase, hp⟩
    exact ⟨base, hbase, p, hp, rfl, rfl⟩

/-- What a zoom leads to; nothing if it fails or there is nothing to zoom. -/
def zoomPlan? (delta : Zoom α) (c : Chart α σ) :
    Option (Zoom α × Projection α × Transition (Projection α) α) :=
  match delta.validate, c.dataset, c.base, c.projection, c.shown with
  | .ok (), some d, some base, some _, some shown =>
    (c.zoomStep? delta d base shown.markers).toOption
  | _, _, _, _, _ => none

theorem zoomPlan?_eq_some {delta : Zoom α} {c : Chart α σ}
    {plan : Zoom α × Projection α × Transition (Projection α) α}
    (h : c.zoomPlan? delta = some plan) :
    ∃ d base p shown, delta.validate = .ok () ∧ c.dataset = some d ∧ c.base = some base ∧
      c.projection = some p ∧ c.shown = some shown ∧
      c.zoomStep? delta d base shown.markers = .ok plan := by
  unfold zoomPlan? at h
  split at h
  next d base p shown hv hd hb hp hs =>
    refine ⟨d, base, p, shown, hv, hd, hb, hp, hs, ?_⟩
    cases hz : c.zoomStep? delta d base shown.markers with
    | error e => simp [hz, Except.toOption] at h
    | ok plan' => simpa [hz, Except.toOption] using h
  next => cases h

theorem zoomStep?_eq_ok {delta : Zoom α} {c : Chart α σ} {d : Dataset α} {base : Scales α}
    {shown : List (Marker α)} {zoom : Zoom α} {target : Projection α}
    {a : Transition (Projection α) α} :
    c.zoomStep? delta d base shown = .ok (zoom, target, a) ↔
      ∃ previous scales start, base.zoomed? c.zoom = .ok previous ∧
        zoom = c.zoom.andThen delta ∧ base.zoomed? zoom = .ok scales ∧
        Projection.ofPoints? d.points scales c.showOutliers c.config.xTickCount
          c.config.yTickCount = .ok target ∧
        target.rebased? shown previous = .ok start ∧
        Transition.make? start target c.config.zoomDuration c.config.zoomEasing = .ok a := by
  simp only [zoomStep?, bind_eq_ok, pure_eq_ok, Prod.mk.injEq]
  constructor
  · rintro ⟨previous, hprevious, scales, hscales, target, htarget, start, hstart, a, ha,
      rfl, rfl, rfl⟩
    exact ⟨previous, scales, start, hprevious, rfl, hscales, htarget, hstart, ha⟩
  · rintro ⟨previous, scales, start, hprevious, rfl, hscales, htarget, hstart, ha⟩
    exact ⟨previous, hprevious, scales, hscales, target, htarget, start, hstart, a, ha,
      rfl, rfl, rfl⟩

/-- The chart with a zoom, before its first frame. -/
def zoomed (plan : Zoom α × Projection α × Transition (Projection α) α) (c : Chart α σ) :
    Chart α σ :=
  { c with zoom := plan.1, projection := some plan.2.1, animation := some plan.2.2 }

variable [Surface σ α]

/-- The chart after some operations. -/
def after (c : Chart α σ) (ops : List (Operation α)) : Chart α σ := run Operation.perform c ops

@[simp] theorem after_nil (c : Chart α σ) : c.after [] = c := rfl

@[simp] theorem after_concat (c : Chart α σ) (ops : List (Operation α)) (op : Operation α) :
    c.after (ops ++ [op]) = (op.perform (c.after ops)).2 := run_concat _ c ops op

/-! ## Spec lemmas of the operations -/

/-- A chart drawn from scratch shows nothing, or the projection that fits its
    data. -/
theorem redraw_cases (c : Chart α σ) :
    (∃ surface, c.redraw.2 = { c.reset with surface }) ∨
    ∃ d base p surface, c.dataset = some d ∧ d.points ≠ [] ∧
      c.reset.fit? d = .ok (base, p) ∧
      c.redraw.2 = { c.reset with base := some base, projection := some p, surface } := by
  unfold redraw
  dsimp only
  split
  next => exact .inl ⟨_, rfl⟩
  next d hd =>
    split
    next => exact .inl ⟨_, rfl⟩
    next hp =>
      split
      next => exact .inl ⟨c.surface, rfl⟩
      next base p hfit =>
        exact .inr ⟨d, base, p, _, hd, by simpa using hp, hfit, rfl⟩

/-- Drawing from scratch keeps what is drawn. -/
theorem redraw_keeps (c : Chart α σ) :
    c.redraw.2.config = c.config ∧ c.redraw.2.presentation = c.presentation ∧
      c.redraw.2.dataset = c.dataset := by
  obtain ⟨_, he⟩ | ⟨_, _, _, _, _, _, _, he⟩ := c.redraw_cases
  · rw [he]
    exact ⟨rfl, rfl, rfl⟩
  · rw [he]
    exact ⟨rfl, rfl, rfl⟩

/-- The clock is moved as in all animated charts. -/
theorem advance_animated (time : α) (c : Chart α σ) :
    c.advance time = Animated.advance time c := by
  obtain ⟨surface, config, presentation, dataset, base, zoom, projection, _ | a⟩ := c <;> rfl

theorem finish_animated (c : Chart α σ) : c.finish = Animated.finish c := by
  obtain ⟨surface, config, presentation, dataset, base, zoom, projection, _ | a⟩ := c <;> rfl

theorem advance_none {c : Chart α σ} (h : c.animation = none) (time : α) :
    (c.advance time).2 = c :=
  advance_animated time c ▸ Animated.advance_none h time

theorem advance_some {c : Chart α σ} {a : Transition (Projection α) α}
    (h : c.animation = some a) (time : α) :
    ∃ surface, (c.advance time).2 = { c with
      animation := if (a.advance time).isFinished then none else some (a.advance time)
      surface } :=
  advance_animated time c ▸ Animated.advance_some h time

theorem advance_eq (c : Chart α σ) (time : α) :
    ∃ animation surface, (c.advance time).2 = { c with animation, surface } :=
  advance_animated time c ▸ Animated.advance_eq c time

theorem animation_of_advance {c : Chart α σ} {time : α} {a : Transition (Projection α) α}
    (h : (c.advance time).2.animation = some a) :
    ∃ a₀, c.animation = some a₀ ∧ a = a₀.advance time ∧ a.isFinished = false := by
  rw [advance_animated] at h
  exact Animated.animation_of_advance (c := c) h

/-- Nothing is zoomed any more. -/
theorem redraw_zoom (c : Chart α σ) : c.redraw.2.zoom = .identity := by
  obtain ⟨_, he⟩ | ⟨_, _, _, _, _, _, _, he⟩ := c.redraw_cases
  · rw [he]
    rfl
  · rw [he]
    rfl

theorem redraw_animation (c : Chart α σ) : c.redraw.2.animation = none := by
  obtain ⟨_, he⟩ | ⟨_, _, _, _, _, _, _, he⟩ := c.redraw_cases
  · rw [he]
    rfl
  · rw [he]
    rfl

theorem zoomBy_none {c : Chart α σ} {delta : Zoom α} (h : c.zoomPlan? delta = none) :
    (c.zoomBy delta).2 = c := by
  unfold zoomBy
  cases hv : delta.validate with
  | error e => rfl
  | ok u =>
    dsimp only
    split
    next d base p shown hd hb hp hs =>
      simp only [zoomPlan?, hv, hd, hb, hp, hs] at h
      cases hz : c.zoomStep? delta d base shown.markers with
      | error e => rfl
      | ok plan => simp [hz, Except.toOption] at h
    next => rfl

/-- A zoom that is made draws the first frame of its animation. -/
theorem zoomBy_eq {c : Chart α σ} {delta : Zoom α}
    {plan : Zoom α × Projection α × Transition (Projection α) α}
    (h : c.zoomPlan? delta = some plan) :
    c.zoomBy delta =
      (((c.zoomed plan).advance 0.0).1.map fun _ => (), ((c.zoomed plan).advance 0.0).2) := by
  obtain ⟨d, base, p, shown, hv, hd, hb, hp, hs, hz⟩ := zoomPlan?_eq_some h
  obtain ⟨surface, config, presentation, dataset, base, zoom, projection, animation⟩ := c
  cases hd
  cases hb
  cases hp
  simp only [zoomBy, hv, hs, hz]
  rfl

theorem zoomBy_some {c : Chart α σ} {delta : Zoom α}
    {plan : Zoom α × Projection α × Transition (Projection α) α}
    (h : c.zoomPlan? delta = some plan) :
    (c.zoomBy delta).2 = ((c.zoomed plan).advance 0.0).2 := congrArg Prod.snd (zoomBy_eq h)

/-- A step composes the zooms, or does nothing. -/
theorem zoomBy_zoom (c : Chart α σ) (delta : Zoom α) :
    (c.zoomBy delta).2.zoom = c.zoom ∨ (c.zoomBy delta).2.zoom = c.zoom.andThen delta := by
  cases hplan : c.zoomPlan? delta with
  | none =>
    rw [zoomBy_none hplan]
    exact .inl rfl
  | some plan =>
    obtain ⟨_, _, _, _, -, -, -, -, -, hz⟩ := zoomPlan?_eq_some hplan
    obtain ⟨zoom, target, a⟩ := plan
    obtain ⟨_, _, _, -, rfl, -⟩ := zoomStep?_eq_ok.1 hz
    obtain ⟨_, _, he⟩ := (c.zoomed (c.zoom.andThen delta, target, a)).advance_eq 0.0
    rw [zoomBy_some hplan, he]
    exact .inr rfl

end Chart

/-! ## Steps -/

variable {α σ : Type} [Scalar α]

/-- Whether the operation is a zoom that is made. -/
def Operation.zooms (c : Chart α σ) : Operation α → Bool
  | .zoomBy delta => (c.zoomPlan? delta).isSome
  | _ => false

variable [Surface σ α]

/-- What an operation can do to a chart; the flags are whether it toggles
    outliers and whether it zooms. -/
inductive Step (c : Chart α σ) : Bool → Bool → Chart α σ → Prop where
  /-- Nothing. -/
  | idle : Step c false false c
  /-- It draws some data from scratch. -/
  | redrawn (dataset : Option (Dataset α)) :
    Step c false false (Chart.redraw { c with dataset }).2
  /-- It shows or hides outliers, and draws the data from scratch. -/
  | toggled :
    Step c true false (Chart.redraw { c with presentation := c.presentation.toggleOutliers }).2
  /-- It moves the clock. -/
  | advanced (time : α) : Step c false false (c.advance time).2
  /-- It zooms, and draws the first frame of the animation. -/
  | zoomed {delta : Zoom α} {plan : Zoom α × Projection α × Transition (Projection α) α} :
    c.zoomPlan? delta = some plan → Step c false true ((c.zoomed plan).advance 0.0).2

theorem Chart.renderPayload_step (response : Json.Value) (grouping : Grouping) (c : Chart α σ) :
    Step c false false (c.renderPayload response grouping).2 := by
  unfold Chart.renderPayload
  split
  · exact .redrawn _
  · exact .redrawn none
  · exact .idle

theorem Chart.finish_step (c : Chart α σ) : Step c false false c.finish.2 := by
  unfold Chart.finish
  split
  · exact .idle
  · exact .advanced _

theorem Chart.zoomBy_step (delta : Zoom α) (c : Chart α σ) :
    Step c false (c.zoomPlan? delta).isSome (c.zoomBy delta).2 := by
  cases h : c.zoomPlan? delta with
  | none =>
    rw [Chart.zoomBy_none h]
    exact .idle
  | some plan =>
    rw [Chart.zoomBy_some h]
    exact .zoomed h

/-- An operation does nothing else. -/
theorem Operation.step (op : Operation α) (c : Chart α σ) :
    Step c op.togglesOutliers (op.zooms c) (op.perform c).2 := by
  cases op with
  | render dataset => exact .redrawn (some dataset)
  | renderPayload response grouping => exact c.renderPayload_step response grouping
  | clear => exact .redrawn none
  | toggleOutliers => exact .toggled
  | handle input =>
    cases input with
    | outlierCheckbox => exact .toggled
    | chartBody => exact .idle
  | zoomBy delta => exact c.zoomBy_step delta
  | advance time => exact .advanced time
  | finish => exact c.finish_step

/-- A step keeps the zoom, gives it up, or composes it with a valid one under which there are
    scales. -/
theorem Step.zoom {c c' : Chart α σ} {toggles zooms : Bool} (h : Step c toggles zooms c') :
    c'.zoom = c.zoom ∨ c'.zoom = .identity ∨
      ∃ delta base scales, delta.validate = .ok () ∧ c.base = some base ∧
        base.zoomed? (c.zoom.andThen delta) = .ok scales ∧ c'.zoom = c.zoom.andThen delta := by
  cases h with
  | idle => exact .inl rfl
  | redrawn dataset => exact .inr (.inl (Chart.redraw_zoom _))
  | toggled => exact .inr (.inl (Chart.redraw_zoom _))
  | advanced time =>
    obtain ⟨_, _, he⟩ := c.advance_eq time
    exact .inl (by rw [he])
  | @zoomed delta plan hplan =>
    obtain ⟨d, base, p, shown, hdelta, -, hbase, -, -, hz⟩ := Chart.zoomPlan?_eq_some hplan
    obtain ⟨zoom, target, a⟩ := plan
    obtain ⟨_, scales, _, -, rfl, hscales, -⟩ := Chart.zoomStep?_eq_ok.1 hz
    obtain ⟨_, _, he⟩ := (c.zoomed (c.zoom.andThen delta, target, a)).advance_eq 0.0
    exact .inr (.inr ⟨delta, base, scales, hdelta, hbase, hscales, by rw [he]; rfl⟩)

/-- What every step preserves holds after every run. -/
theorem Chart.after_induction {P : Chart α σ → Prop}
    (hstep : ∀ {c c' : Chart α σ} {toggles zooms : Bool}, P c → Step c toggles zooms c' → P c')
    {c : Chart α σ} (h : P c) (ops : List (Operation α)) : P (c.after ops) := by
  induction ops using List.reverseRecOn with
  | nil => exact h
  | append_singleton ops op ih =>
    rw [after_concat]
    exact hstep ih (op.step _)

end CourseCharts.Scatter

/-
  CourseCharts — what the surface of a scatter chart shows.

  As long as every operation succeeds, the surface shows the frame of the
  chart, in which no marker is missing.

  * `Chart.Succeeds` says that every operation of a run succeeds;
  * `Chart.Displayed`: the last frame drawn is the frame of the chart, and data
    with points have a projection;
  * `Operation.displayed_of_draws` and `Operation.displayed`: an operation that
    draws from scratch leads there, and every other one keeps it so;
  * `surface_shows_chart`: what is on the surface after a run.
-/
import CourseCharts.Proofs.Drawing.Surface
import CourseCharts.Proofs.Scatter.Invariant
import CourseCharts.Proofs.Scatter.Picture

namespace CourseCharts.Scatter

/-! ## Runs that succeed -/

/-- Whether the operation draws the chart from scratch. -/
def Operation.draws {α : Type} : Operation α → Bool
  | render _ | renderPayload _ _ | clear | toggleOutliers | handle .outlierCheckbox => true
  | handle .chartBody | zoomBy _ | advance _ | finish => false

/-- Every operation of a run succeeds. -/
def Chart.Succeeds {α σ : Type} [Scalar α] [Surface σ α] (c : Chart α σ) :
    List (Operation α) → Prop
  | [] => True
  | op :: ops => (op.perform c).1.isOk = true ∧ (op.perform c).2.Succeeds ops

namespace Chart

variable {α σ : Type} [Scalar α] [Surface σ α]

/-- What drawing from scratch comes to. -/
theorem redraw_outcome (c : Chart α σ) :
    ((∀ d, c.dataset = some d → d.points = []) ∧
      c.redraw = c.reset.draw (.blank c.config.viewport)) ∨
    ∃ d, c.dataset = some d ∧ d.points ≠ [] ∧
      ((∃ e, c.reset.fit? d = .error e ∧ c.redraw = (.error e, c.reset)) ∨
        ∃ base p, c.reset.fit? d = .ok (base, p) ∧
          let c' := { c.reset with base := some base, projection := some p }
          c.redraw = c'.draw (c'.frameOf p)) := by
  unfold redraw
  dsimp only
  split
  next hd =>
    have hnone : c.dataset = none := hd
    exact .inl ⟨fun d h => (nomatch hnone.symm.trans h), rfl⟩
  next d hd =>
    have hsome : c.dataset = some d := hd
    split
    next hempty =>
      refine .inl ⟨fun d' h => ?_, rfl⟩
      obtain rfl := Option.some.inj (hsome.symm.trans h)
      exact List.isEmpty_iff.1 hempty
    next hempty =>
      refine .inr ⟨d, hsome, fun h => hempty (List.isEmpty_iff.2 h), ?_⟩
      split
      next e hfit => exact .inl ⟨e, hfit, rfl⟩
      next base p hfit => exact .inr ⟨base, p, hfit, rfl⟩

/-- A move of the clock draws what the animation has come to. -/
theorem advance_draw {c : Chart α σ} {a : Transition (Projection α) α}
    (h : c.animation = some a) (time : α) :
    let a := a.advance time
    let c' := { c with animation := if a.isFinished then none else some a }
    c.advance time =
      ((c'.draw (c'.frameOf a.current)).1.map fun _ => !a.isFinished,
        (c'.draw (c'.frameOf a.current)).2) := by
  simp only [advance, h]

/-- The frame drawn after a move of the clock is the frame of the chart then. -/
theorem frameOf_current {α σ : Type} [Scalar α] {c : Chart α σ}
    {a : Transition (Projection α) α} (hp : c.projection = some a.target) :
    let c' := { c with animation := if a.isFinished then none else some a }
    c'.frameOf a.current = c'.frame := by
  cases hf : a.isFinished with
  | true => simp [frame, shown, hp, Transition.current_of_finished hf]
  | false => simp [frame, shown]

end Chart

/-! ## What is displayed -/

namespace Chart

variable {α : Type} [Scalar α]

/-- The surface shows the frame of the chart, and data with points have a projection. -/
structure Displayed (c : Chart α (HeadlessSurface α)) : Prop where
  frame : c.surface.frame = some c.frame
  projected : ∀ d, c.dataset = some d → d.points ≠ [] → c.projection.isSome = true

variable {c : Chart α (HeadlessSurface α)}

theorem frame_of_draw {f : Frame α} (h : (c.draw f).1.isOk = true) :
    (c.draw f).2.surface.frame = some f := by
  obtain ⟨u, hu⟩ := isOk_iff.1 h
  exact HeadlessSurface.frame_of_draw hu

theorem redraw_displayed (h : c.redraw.1.isOk = true) : c.redraw.2.Displayed := by
  obtain ⟨hempty, he⟩ | ⟨d, hd, -, ⟨e, -, he⟩ | ⟨base, p, -, he⟩⟩ := c.redraw_outcome
  · rw [he] at h ⊢
    exact ⟨frame_of_draw h, fun d hd hne => absurd (hempty d hd) hne⟩
  · rw [he] at h
    cases h
  · rw [he] at h ⊢
    exact ⟨frame_of_draw h, fun _ _ _ => rfl⟩

/-- After a move of the clock, the surface shows where the animation is, or where it leads
    if it has come to its end. -/
theorem advance_displayed {a : Transition (Projection α) α} (ha : c.animation = some a)
    (hp : c.projection = some a.target) {time : α} (h : (c.advance time).1.isOk = true) :
    (c.advance time).2.Displayed := by
  rw [advance_draw ha] at h ⊢
  rw [isOk_map] at h
  have hprojected : c.projection.isSome = true := by rw [hp]; rfl
  refine ⟨(frame_of_draw h).trans (congrArg some ?_), fun _ _ _ => hprojected⟩
  exact frameOf_current (hp.trans (by rw [Transition.advance_target]))

theorem zoomBy_displayed [LawfulScalar α] (hc : c.Consistent) (hd : c.Displayed)
    {delta : Zoom α} (h : (c.zoomBy delta).1.isOk = true) : (c.zoomBy delta).2.Displayed := by
  cases hplan : c.zoomPlan? delta with
  | none => rwa [zoomBy_none hplan]
  | some plan =>
    rw [zoomBy_eq hplan, isOk_map] at h
    rw [zoomBy_eq hplan]
    obtain hblank | ⟨d, b, s, p, hshows⟩ := hc.1
    · obtain ⟨_, _, p, _, _, _, _, hp, _⟩ := zoomPlan?_eq_some hplan
      cases hblank.projection.symm.trans hp
    · obtain ⟨_, hzoomed⟩ := hshows.zoomed hplan
      have htarget := (hzoomed.animation _ rfl).target
      exact advance_displayed rfl (hzoomed.projection.trans (congrArg some htarget.symm)) h

/-- An animation leads to the projection. -/
theorem Consistent.target (hc : c.Consistent) {a : Transition (Projection α) α}
    (ha : c.animation = some a) : c.projection = some a.target := by
  obtain hblank | ⟨d, b, s, p, hshows⟩ := hc.1
  · cases hblank.animation.symm.trans ha
  · rw [hshows.projection, (hshows.animation a ha).target]

theorem Consistent.advance_displayed (hc : c.Consistent) (hd : c.Displayed) {time : α}
    (h : (c.advance time).1.isOk = true) : (c.advance time).2.Displayed := by
  cases ha : c.animation with
  | none => rwa [advance_none ha]
  | some a => exact Chart.advance_displayed ha (hc.target ha) h

theorem Consistent.finish_displayed (hc : c.Consistent) (hd : c.Displayed)
    (h : c.finish.1.isOk = true) : c.finish.2.Displayed := by
  unfold finish at h ⊢
  split
  next => exact hd
  next a ha =>
    rw [ha] at h
    dsimp only at h
    rw [isOk_map] at h
    exact hc.advance_displayed hd h

end Chart

namespace Operation

variable {α : Type} [Scalar α] {op : Operation α} {c : Chart α (HeadlessSurface α)}

/-- An operation that draws from scratch displays the chart, whatever it was before. -/
theorem displayed_of_draws (hdraws : op.draws = true) (h : (op.perform c).1.isOk = true) :
    (op.perform c).2.Displayed := by
  cases op with
  | render d =>
    simp only [perform, perform.silent, isOk_map] at h
    exact Chart.redraw_displayed h
  | renderPayload response grouping =>
    simp only [perform, perform.silent, isOk_map, Chart.renderPayload] at h ⊢
    split at h
    next => exact Chart.redraw_displayed h
    next => exact Chart.redraw_displayed h
    next => cases h
  | clear =>
    simp only [perform, perform.silent, isOk_map] at h
    exact Chart.redraw_displayed h
  | toggleOutliers =>
    simp only [perform, perform.flagged, isOk_map, Chart.toggleOutliers] at h
    exact Chart.redraw_displayed h
  | handle input =>
    cases input with
    | outlierCheckbox =>
      simp only [perform, perform.silent, isOk_map, Chart.handle, Chart.toggleOutliers] at h
      exact Chart.redraw_displayed h
    | chartBody => cases hdraws
  | zoomBy delta => cases hdraws
  | advance time => cases hdraws
  | finish => cases hdraws

/-- An operation that succeeds keeps a chart displayed. -/
theorem displayed [LawfulScalar α] (hc : c.Consistent) (hd : c.Displayed)
    (h : (op.perform c).1.isOk = true) : (op.perform c).2.Displayed := by
  cases hdraws : op.draws with
  | true => exact displayed_of_draws hdraws h
  | false =>
    cases op with
    | handle input =>
      cases input with
      | outlierCheckbox => cases hdraws
      | chartBody => exact hd
    | zoomBy delta =>
      simp only [perform, perform.silent, isOk_map] at h
      exact Chart.zoomBy_displayed hc hd h
    | advance time =>
      simp only [perform, perform.flagged, isOk_map] at h
      exact hc.advance_displayed hd h
    | finish =>
      simp only [perform, perform.silent, isOk_map] at h
      exact hc.finish_displayed hd h
    | _ => cases hdraws

end Operation

/-! ## Runs -/

namespace Chart

variable {α : Type} [Scalar α] {c : Chart α (HeadlessSurface α)} {ops : List (Operation α)}

theorem Succeeds.displayed [LawfulScalar α] (h : c.Succeeds ops) (hc : c.Consistent)
    (hd : c.Displayed) : (c.after ops).Displayed := by
  induction ops generalizing c with
  | nil => exact hd
  | cons op ops ih => exact ih h.2 (hc.step (op.step c)) (op.displayed hc hd h.1)

/-- A chart is displayed as soon as it has been drawn. -/
theorem Succeeds.displayed_of_draws [LawfulScalar α] (h : c.Succeeds ops) (hc : c.Consistent)
    (hdraws : ops.any (·.draws) = true) : (c.after ops).Displayed := by
  induction ops generalizing c with
  | nil => cases hdraws
  | cons op ops ih =>
    have hstep : (op.perform c).2.Consistent := hc.step (op.step c)
    cases hop : op.draws with
    | true => exact h.2.displayed hstep (op.displayed_of_draws hop h.1)
    | false =>
      rw [List.any_cons, hop, Bool.false_or] at hdraws
      exact ih h.2 hstep hdraws

end Chart

/-! ## The frame -/

namespace Chart

variable {α σ : Type} [Scalar α] {c : Chart α σ}

theorem Blank.frame (h : c.Blank) : c.frame = .blank c.config.viewport := by
  simp [Chart.frame, shown, h.animation, h.projection]

theorem Shows.frame {d : Dataset α} {b s : Scales α} {p : Projection α} (h : c.Shows d b s p) :
    ∃ shown, c.shown = some shown ∧ shown.markers.length = d.points.length ∧
      c.frame = d.frame c.config c.showOutliers shown := by
  obtain ⟨shown, hs⟩ : ∃ shown, c.shown = some shown := by
    cases ha : c.animation with
    | none => exact ⟨p, by rw [Chart.shown, ha, h.projection]⟩
    | some a => exact ⟨a.current, by rw [Chart.shown, ha]⟩
  refine ⟨shown, hs, h.length_markers hs, ?_⟩
  simp only [Chart.frame, hs, frameOf, h.dataset]

end Chart

end CourseCharts.Scatter

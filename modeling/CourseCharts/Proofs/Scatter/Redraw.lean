/-
  CourseCharts — a scatter chart that could not be drawn.

  Drawing from scratch can fail after the chart was told what to draw.  The
  chart stays with what it was asked for, and the surface with the frame that
  was drawn last.

  * `HeadlessSurface.Sound`: a frame that is kept is a valid one;
  * `Chart.Undrawn` is what is left of a chart that was not drawn;
    `Chart.redraw_fails` says that nothing else is left;
  * `Chart.Undrawn.inStep_iff`: when it still goes with the surface;
  * `Chart.redraw_of_reset`: drawing from scratch looks at nothing that was drawn
    before, so that the next attempt is not affected;
  * `failed_redraw_keeps_request`: so it is after any run.
-/
import CourseCharts.Proofs.Drawing.Frame
import CourseCharts.Proofs.Scatter.ZoomStep

namespace CourseCharts

variable {α : Type} [Scalar α]

/-! ## The frame that is kept -/

/-- A frame that is kept is a valid one. -/
def HeadlessSurface.Sound (s : HeadlessSurface α) : Prop :=
  ∀ f, s.frame = some f → f.validate = .ok ()

theorem HeadlessSurface.sound_initial : (HeadlessSurface.initial : HeadlessSurface α).Sound :=
  fun _ h => nomatch h

/-- A surface stays sound, also when it refuses a frame. -/
theorem HeadlessSurface.answerAlike_sound :
    Surface.AnswerAlike α fun (s t : HeadlessSurface α) => t = s ∧ s.Sound := by
  rintro f s _ ⟨rfl, hs⟩
  refine ⟨rfl, rfl, ?_⟩
  cases h : f.validate with
  | ok =>
    rw [HeadlessSurface.draw_valid h]
    intro f' hf'
    cases hf'
    exact h
  | error e =>
    rw [HeadlessSurface.draw_refused h]
    exact hs

namespace Scatter

namespace Chart

variable {c : Chart α (HeadlessSurface α)}

theorem sound_after (h : c.surface.Sound) (ops : List (Operation α)) :
    (c.after ops).surface.Sound := by
  obtain ⟨_, ⟨-, hsound⟩, -⟩ :=
    c.after_mirrors HeadlessSurface.answerAlike_sound (t := c.surface) ⟨rfl, h⟩ ops
  exact hsound

/-! ## Drawing that fails -/

/-- What is left of a chart that was asked to draw its data from scratch and failed. -/
inductive Undrawn (asked : Chart α (HeadlessSurface α)) (e : ChartError) :
    Chart α (HeadlessSurface α) → Prop where
  /-- The points have no scales, or no places on them. -/
  | unfitted {d : Dataset α} : asked.dataset = some d → d.points ≠ [] →
    asked.fit? d = .error e → Undrawn asked e asked.reset
  /-- The surface refuses the frame. -/
  | refused {d : Dataset α} {base : Scales α} {p : Projection α} : asked.dataset = some d →
    d.points ≠ [] → asked.fit? d = .ok (base, p) →
    (d.frame asked.config asked.showOutliers p).validate = .error e →
    Undrawn asked e { asked.reset with base := some base, projection := some p }

theorem draw_refused {f : Frame α} {e : ChartError} (h : f.validate = .error e) :
    c.draw f = (.error e, c) := by
  rw [draw, HeadlessSurface.draw_refused h]

/-- A blank frame is never refused, so that it is always the points that fail. -/
theorem redraw_fails (hviewport : c.config.viewport.validate = .ok ()) {e : ChartError}
    (h : c.redraw.1 = .error e) : c.Undrawn e c.redraw.2 := by
  obtain ⟨-, he⟩ | ⟨d, hd, hne, ⟨e', hfit, he⟩ | ⟨base, p, hfit, he⟩⟩ := c.redraw_outcome
  · rw [he] at h
    have hblank : (c.reset.draw (.blank c.config.viewport)).1 = .ok () :=
      congrArg Prod.fst (HeadlessSurface.draw_valid (Frame.blank_validate hviewport) c.surface)
    cases hblank.symm.trans h
  · rw [he] at h ⊢
    cases h
    exact .unfitted hd hne hfit
  · -- it was the frame of the data that was drawn
    have hframe : frameOf { c.reset with base := some base, projection := some p } p =
        d.frame c.config c.showOutliers p := by
      rw [frameOf, show c.reset.dataset = some d from hd]
      rfl
    rw [he] at h ⊢
    rw [hframe] at h ⊢
    cases hvalid : (d.frame c.config c.showOutliers p).validate with
    | ok =>
      have hdrawn := congrArg Prod.fst (HeadlessSurface.draw_valid hvalid c.surface)
      cases hdrawn.symm.trans h
    | error e' =>
      rw [draw_refused hvalid] at h ⊢
      cases h
      exact .refused hd hne hfit hvalid

/-- Drawing from scratch does not look at what was drawn before. -/
theorem redraw_of_reset {σ : Type} [Surface σ α] {a b : Chart α σ} (h : a.reset = b.reset) :
    a.redraw = b.redraw := by
  unfold redraw
  rw [h]

namespace Undrawn

variable {asked left : Chart α (HeadlessSurface α)} {e : ChartError}

theorem reset_eq (h : asked.Undrawn e left) : left.reset = asked.reset := by
  cases h <;> rfl

theorem surface_eq (h : asked.Undrawn e left) : left.surface = asked.surface := by
  cases h <;> rfl

/-- What is left is what the surface shows, if it has no projection and the last frame was
    blank. -/
theorem inStep_iff (h : asked.Undrawn e left) (hsound : asked.surface.Sound) :
    left.surface.frame = some left.frame ↔
      left.projection = none ∧ asked.surface.frame = some (.blank asked.config.viewport) := by
  rw [h.surface_eq]
  cases h with
  | unfitted =>
    have hframe : asked.reset.frame = .blank asked.config.viewport := rfl
    rw [hframe]
    exact ⟨fun h => ⟨rfl, h⟩, And.right⟩
  | @refused d base p hd hne hfit hrefused =>
    have hframe : frame { asked.reset with base := some base, projection := some p } =
        d.frame asked.config asked.showOutliers p := by
      simp only [frame, shown, reset, frameOf, hd]
      rfl
    rw [hframe]
    constructor
    · intro hkept
      cases (hsound _ hkept).symm.trans hrefused
    · intro hnone
      cases hnone.1

/-- A second toggle draws the data as they were shown before the first one. -/
theorem toggleOutliers_back (h : asked.Undrawn e left)
    (hasked : asked = { c with presentation := c.presentation.toggleOutliers }) :
    left.toggleOutliers = (c.redraw.1.map fun _ => c.showOutliers, c.redraw.2) := by
  subst hasked
  have hreset : reset { left with presentation := left.presentation.toggleOutliers } = c.reset := by
    have hagain := congrArg
      (fun c => reset { c with presentation := c.presentation.toggleOutliers }) h.reset_eq
    refine hagain.trans ?_
    simp [reset, Presentation.toggleOutliers]
  have hshown := congrArg showOutliers hreset
  simp only [showOutliers, reset] at hshown
  simp only [toggleOutliers, redraw_of_reset hreset, showOutliers, hshown]

end Undrawn

end Chart

/-! ## Runs -/

/-- **A failed redraw keeps the request.** Whatever was done with a chart before, let it fail to
    draw a new dataset, or the data it has with outliers shown or hidden.
    The surface and the configuration are as before. The chart has the dataset or the setting
    that was asked for, and nothing is zoomed or animated. There are neither scales nor a
    projection if the points could not be placed, and those of the points if it was their
    frame that the surface refused.
    What is left goes with the surface exactly if there is no projection and the last frame
    was blank. The next dataset is drawn as if the failed one had never come, and the next
    toggle draws the data as they were shown before, from scratch. -/
theorem failed_redraw_keeps_request {surface : HeadlessSurface α} (hsurface : surface.Sound)
    {config : Config α} {c : Chart α (HeadlessSurface α)}
    (hc : Chart.make? surface config = .ok c) (ops : List (Operation α)) :
    let c' := c.after ops
    (∀ d e, (c'.render d).1 = .error e →
      let asked := { c' with dataset := some d }
      let left := (c'.render d).2
      asked.Undrawn e left ∧
      (left.surface.frame = some left.frame ↔
        left.projection = none ∧ c'.surface.frame = some (.blank config.viewport)) ∧
      ∀ d', left.render d' = c'.render d') ∧
    (∀ e, c'.toggleOutliers.1 = .error e →
      let asked := { c' with presentation := c'.presentation.toggleOutliers }
      let left := c'.toggleOutliers.2
      asked.Undrawn e left ∧
      (left.surface.frame = some left.frame ↔
        left.projection = none ∧ c'.surface.frame = some (.blank config.viewport)) ∧
      left.toggleOutliers = (c'.redraw.1.map fun _ => c'.showOutliers, c'.redraw.2)) := by
  intro c'
  have hconfig : c'.config = config := by
    rw [Chart.config_after, (Chart.make?_eq_ok.1 hc).2]
  have hviewport : c'.config.viewport.validate = .ok () := (Chart.accepted_after hc ops).viewport
  have hsound : c'.surface.Sound := by
    refine Chart.sound_after ?_ ops
    rw [(Chart.make?_eq_ok.1 hc).2]
    exact hsurface
  rw [← hconfig]
  constructor
  · intro d e he asked left
    have hleft : asked.Undrawn e left := Chart.redraw_fails (c := asked) hviewport he
    refine ⟨hleft, hleft.inStep_iff hsound, fun d' => Chart.redraw_of_reset ?_⟩
    exact congrArg (fun c => Chart.reset { c with dataset := some d' }) hleft.reset_eq
  · intro e he asked left
    have hleft : asked.Undrawn e left :=
      Chart.redraw_fails (c := asked) hviewport (map_eq_error.1 he)
    exact ⟨hleft, hleft.inStep_iff hsound, hleft.toggleOutliers_back rfl⟩

/-- Two points far apart; the second one can only be shown while its outlier is hidden. -/
def Dataset.hiddenNaN : Dataset Float where
  points := [⟨⟨"17"⟩, -8.5e307, -8.5e307, none, "ann", "tour"⟩,
    ⟨⟨"23"⟩, 8.5e307, 8.5e307, some Float.nan, "bob", "tour"⟩]
  xAxis := ⟨"Score", "%"⟩
  yAxis := ⟨"Time", ""⟩
  grouping := .project

/-- A point that cannot be shown. -/
def Dataset.unplaced : Dataset Float :=
  { Dataset.hiddenNaN with points := [⟨⟨"42"⟩, Float.nan, 60.0, none, "cleo", "tour"⟩] }

/-- A chart in an animation can neither draw a point that is not a number nor show such an
    outlier. -/
theorem failed_redraw_keeps_request_nan :
    ∃ c, Chart.make? (HeadlessSurface.initial : HeadlessSurface Float) Config.standard = .ok c ∧
      let c' := c.after [.render .hiddenNaN, .zoomBy .identity]
      (∃ e, Chart.Undrawn { c' with dataset := some .unplaced } e (c'.render .unplaced).2) ∧
        (c'.render .unplaced).2.render .farApart = c'.render .farApart ∧
        c'.toggleOutliers.2.toggleOutliers =
          (c'.redraw.1.map fun _ => c'.showOutliers, c'.redraw.2) := by
  have hc := Chart.make?_standard (HeadlessSurface.initial : HeadlessSurface Float)
  obtain ⟨hrender, htoggle⟩ := failed_redraw_keeps_request HeadlessSurface.sound_initial hc
    [.render .hiddenNaN, .zoomBy .identity]
  have hfails {β : Type} {x : Except ChartError β} {Q : ChartError → Prop}
      (hQ : ∀ e, x = .error e → Q e) (h : x.isOk = false) : ∃ e, Q e := by
    cases x with
    | ok => cases h
    | error e => exact ⟨e, hQ e rfl⟩
  obtain ⟨e, hleft, -, hnext⟩ := hfails (hrender .unplaced) (by decide +kernel)
  obtain ⟨-, -, -, hback⟩ := hfails htoggle (by decide +kernel)
  exact ⟨_, hc, ⟨e, hleft⟩, hnext _, hback⟩

/-- Both failures change the chart: the dataset or the setting, and everything that was
    shown. The last frame stays, so that it is not the frame of the chart any more. -/
theorem failed_redraw_changes_chart :
    ∃ c, Chart.make? (HeadlessSurface.initial : HeadlessSurface Float) Config.standard = .ok c ∧
      let c' := c.after [.render .hiddenNaN, .zoomBy .identity]
      let rendered := c'.render .unplaced
      let toggled := c'.toggleOutliers
      (rendered.1.isOk = false ∧ rendered.2.dataset ≠ c'.dataset ∧
        rendered.2.currentScales ≠ c'.currentScales ∧
        rendered.2.projection ≠ c'.projection ∧ rendered.2.animation ≠ c'.animation ∧
        rendered.2.surface.frame ≠ some rendered.2.frame) ∧
      (toggled.1.isOk = false ∧ toggled.2.showOutliers ≠ c'.showOutliers ∧
        toggled.2.currentScales ≠ c'.currentScales ∧
        toggled.2.projection ≠ c'.projection ∧ toggled.2.animation ≠ c'.animation ∧
        toggled.2.surface.frame ≠ some toggled.2.frame) := by
  have hc := Chart.make?_standard (HeadlessSurface.initial : HeadlessSurface Float)
  -- each pair of values is told apart by something that can be computed
  have hdataset {s t : Option (Dataset Float)}
      (h : s.map (·.points.length) ≠ t.map (·.points.length)) : s ≠ t := ne_of_apply_ne _ h
  have hscales {s t : Except ChartError (Option (Scales Float))}
      (h : s.toOption.map Option.isSome ≠ t.toOption.map Option.isSome) : s ≠ t :=
    ne_of_apply_ne (fun s => s.toOption.map Option.isSome) h
  have hsome {β : Type} {s t : Option β} (h : s.isSome ≠ t.isSome) : s ≠ t := ne_of_apply_ne _ h
  have hframe {s t : Option (Frame Float)} (h : s.map Frame.size ≠ t.map Frame.size) : s ≠ t :=
    ne_of_apply_ne _ h
  exact ⟨_, hc, And.imp
    (And.imp_right (And.imp hdataset (And.imp hscales (And.imp hsome (And.imp hsome hframe)))))
    (And.imp_right (And.imp_right (And.imp hscales (And.imp hsome (And.imp hsome hframe)))))
    (by decide +kernel)⟩

end Scatter

end CourseCharts

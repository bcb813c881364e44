/-
  CourseCharts — what the surface of an overview chart shows.

  In exact arithmetic no operation of an overview chart fails, as every frame
  that it comes to draw is valid.

  * `Chart.Placed`: the bars fit into the plot, where an animation starts and
    where it leads; `Chart.Placed.step`: every operation keeps it so;
  * `Chart.Draws`: a result that succeeds and leaves the frame of the chart on
    the surface; `Operation.outcome`: every operation has such a result, or
    leaves the surface and the frame as they are;
  * `frames_complete_and_placed`: what is on the surface after a run.
-/
import CourseCharts.Proofs.Drawing.Surface
import CourseCharts.Proofs.Overview.Invariant
import CourseCharts.Proofs.Overview.Picture

namespace CourseCharts.Overview

/-! ## Places -/

namespace Chart

section
variable {σ : Type} {c : Chart Rat σ}

/-- The bars fit into the plot, where they are and where they come from. -/
structure Placed (c : Chart Rat σ) : Prop where
  drawable : c.config.Drawable
  geometry : ∀ e ∈ c.geometry, e.Fits c.config.plotArea.height c.config.labelGap
  origin : ∀ a, c.animation = some a →
    ∀ e ∈ a.origin, e.Fits c.config.plotArea.height c.config.labelGap

theorem Consistent.nonempty_of_animation {α : Type} [Scalar α] {c : Chart α σ}
    (hc : c.Consistent) {a : Transition (List (EntityGeometry α)) α} (ha : c.animation = some a) :
    c.data ≠ [] := by
  obtain hblank | ⟨l, hshows⟩ := hc.shows
  · cases hblank.animation.symm.trans ha
  · exact hshows.nonempty

/-- An animation leads to the geometry. -/
theorem Consistent.target {α : Type} [Scalar α] {c : Chart α σ} (hc : c.Consistent)
    {a : Transition (List (EntityGeometry α)) α} (ha : c.animation = some a) :
    a.target = c.geometry := by
  obtain hblank | ⟨l, hshows⟩ := hc.shows
  · cases hblank.animation.symm.trans ha
  · exact (hshows.animation a ha).target

/-- At any moment, the bars of an animation fit. -/
theorem Placed.current (hp : c.Placed) {a : Transition (List (EntityGeometry Rat)) Rat}
    (ha : c.animation = some a) (htarget : a.target = c.geometry) (time : Rat) :
    ∀ e ∈ (a.advance time).current, e.Fits c.config.plotArea.height c.config.labelGap := by
  apply fits_current
  · rw [Transition.advance_origin]
    exact hp.origin a ha
  · rw [Transition.advance_target, htarget]
    exact hp.geometry

theorem Placed.shown (hp : c.Placed) (hc : c.Consistent) :
    ∀ e ∈ c.shown, e.Fits c.config.plotArea.height c.config.labelGap := by
  cases ha : c.animation with
  | none =>
    rw [Chart.shown, ha]
    exact hp.geometry
  | some a =>
    rw [Chart.shown, ha, ← a.advance_elapsed]
    exact hp.current ha (hc.target ha) a.elapsed

/-- A frame with bars that fit can be drawn. -/
theorem frameOf_valid (h : c.config.Drawable) {es : List (EntityGeometry Rat)}
    (hes : ∀ e ∈ es, e.Fits c.config.plotArea.height c.config.labelGap) :
    (c.frameOf es).validate = .ok () := by
  unfold frameOf
  split
  next => exact Frame.blank_validate h.viewport
  next => exact Picture.frame_valid _ h hes

/-- A toggle starts an animation from what is shown, be it in the middle of another one. -/
theorem Placed.arranged (hp : c.Placed) (hc : c.Consistent) {l : Layout Rat} (hl : c.Shows l)
    {p : Presentation} {es : List (EntityGeometry Rat)}
    {a : Transition (List (EntityGeometry Rat)) Rat}
    (ha : Chart.arrange? { c with presentation := p } l = .ok (es, a)) :
    Placed { c with presentation := p, geometry := es, animation := some a } := by
  obtain ⟨hes, htransition⟩ := arrange?_eq_ok.1 ha
  obtain ⟨-, rfl⟩ := Transition.make?_eq_ok.1 htransition
  refine ⟨hp.drawable, Layout.geometry?_fits hl.make hp.drawable.height.le hes, ?_⟩
  rintro _ ⟨⟩
  exact hp.shown hc

variable [Surface σ Rat]

theorem Placed.render (hp : c.Placed) (hc : c.Consistent) {data : List Datum}
    (hdata : ∀ d ∈ data, d.Counted) (grouping : Grouping) :
    (c.render data grouping).2.Placed := by
  obtain ⟨rfl, _, he⟩ | ⟨-, e, hfit⟩ | ⟨-, l, es, _, hfit, he⟩ := c.render_cases data grouping
  · rw [he]
    exact ⟨hp.drawable, by simp, fun a ha => nomatch ha⟩
  · obtain ⟨l, es, hfit'⟩ := fit?_isOk hc.usable hdata
    cases hfit.symm.trans hfit'
  · rw [he]
    obtain ⟨hl, hes⟩ := fit?_eq_ok.1 hfit
    exact ⟨hp.drawable, Layout.geometry?_fits hl hp.drawable.height.le hes, fun a ha => nomatch ha⟩

theorem Placed.advance (hp : c.Placed) (time : Rat) : (c.advance time).2.Placed := by
  have horigin : ∀ a, (c.advance time).2.animation = some a →
      ∀ e ∈ a.origin, e.Fits c.config.plotArea.height c.config.labelGap := by
    intro a ha
    obtain ⟨a₀, ha₀, rfl, -⟩ := animation_of_advance ha
    rw [Transition.advance_origin]
    exact hp.origin a₀ ha₀
  obtain ⟨_, _, he⟩ := c.advance_eq time
  rw [he] at horigin ⊢
  exact ⟨hp.drawable, hp.geometry, horigin⟩

theorem Placed.toggle (hp : c.Placed) (hc : c.Consistent) : c.toggle.2.Placed := by
  obtain hblank | ⟨l, hshows⟩ := hc.shows
  · rw [toggle_none hblank.layout]
    exact ⟨hp.drawable, hp.geometry, hp.origin⟩
  · obtain ⟨es, a, harrange⟩ := hshows.arrange?_isOk hc.usable hc.counted
      c.presentation.toggleArrangement
    rw [toggle_some hshows.layout harrange]
    exact (hp.arranged hc hshows harrange).advance 0.0

/-- Every operation keeps the bars in the plot. -/
theorem Placed.step (hp : c.Placed) (hc : c.Consistent) {c' : Chart Rat σ} {toggles : Bool}
    {rendered? : Option (List Datum × Grouping)} (hs : Step c toggles rendered? c')
    (hcounted : ∀ data grouping, rendered? = some (data, grouping) → ∀ d ∈ data, d.Counted) :
    c'.Placed := by
  cases hs with
  | idle => exact hp
  | rendered data grouping => exact hp.render hc (hcounted data grouping rfl) grouping
  | toggled => exact hp.toggle hc
  | advanced time => exact hp.advance time

theorem placed_after {surface : σ} {config : Config Rat}
    (hc : Chart.make? surface config = .ok c) {ops : List (Operation Rat)}
    (hops : ∀ op ∈ ops, op.Counted) : (c.after ops).Placed := by
  refine Operation.counted_induction (P := fun ops => (c.after ops).Placed) ?_
    (fun ops op hbefore hop hplaced => ?_) hops
  · obtain ⟨hvalid, rfl⟩ := Chart.make?_eq_ok.1 hc
    exact ⟨Config.drawable_of_validate hvalid, by simp, fun a ha => nomatch ha⟩
  · rw [Chart.after_concat]
    exact hplaced.step (consistent_after hc hbefore) (op.step _)
      fun data grouping hr => hop.rendered hr

end

/-! ## What is drawn -/

section
variable {s : HeadlessSurface Rat} {c : Chart Rat (HeadlessSurface Rat)} {β γ : Type}

/-- The result of an operation that succeeds and leaves the frame of the chart on the
    surface, the only one it has drawn there. -/
structure Draws (s : HeadlessSurface Rat)
    (r : Except ChartError β × Chart Rat (HeadlessSurface Rat)) : Prop where
  isOk : r.1.isOk = true
  draws : r.2.surface.draws = s.draws + 1
  frame : r.2.surface.frame = some r.2.frame

theorem Draws.map {r : Except ChartError β × Chart Rat (HeadlessSurface Rat)} (h : Draws s r)
    (f : β → γ) : Draws s (r.1.map f, r.2) :=
  ⟨(isOk_map _ _).trans h.isOk, h.draws, h.frame⟩

theorem draws_of_valid {f : Frame Rat} (hs : c.surface = s) (hf : f.validate = .ok ())
    (hframe : c.frame = f) : Draws s (c.draw f) := by
  subst hs
  have hdraw := HeadlessSurface.draw_valid hf c.surface
  refine ⟨congrArg (·.1.isOk) hdraw, congrArg (·.2.draws) hdraw, ?_⟩
  exact (congrArg (·.2.frame) hdraw).trans (congrArg some hframe.symm)

theorem Placed.render_draws (hp : c.Placed) (hc : c.Consistent) {data : List Datum}
    (hdata : ∀ d ∈ data, d.Counted) (grouping : Grouping) :
    Draws c.surface (c.render data grouping) := by
  unfold Chart.render
  dsimp only
  split
  next => exact draws_of_valid rfl (Frame.blank_validate hp.drawable.viewport) (by rfl)
  next =>
    split
    next e hfit =>
      obtain ⟨l, es, hfit'⟩ := fit?_isOk hc.usable hdata
      cases hfit.symm.trans hfit'
    next l es hfit =>
      obtain ⟨hl, hes⟩ := fit?_eq_ok.1 hfit
      have hfits := Layout.geometry?_fits hl hp.drawable.height.le hes
      exact draws_of_valid rfl (Picture.frame_valid _ hp.drawable hfits) (by rfl)

/-- A move of the clock draws what the animation has come to; at its end that is the
    geometry. -/
theorem Placed.advance_draws (hp : c.Placed) {a : Transition (List (EntityGeometry Rat)) Rat}
    (ha : c.animation = some a) (htarget : a.target = c.geometry) (time : Rat) :
    Draws c.surface (c.advance time) := by
  have hcurrent : ∀ e ∈ (a.advance time).current,
      e.Fits c.config.plotArea.height c.config.labelGap :=
    hp.current ha htarget time
  simp only [Chart.advance, ha]
  refine Draws.map (draws_of_valid ?_ ?_ ?_) _
  · rfl
  · exact frameOf_valid hp.drawable hcurrent
  · cases hf : (a.advance time).isFinished with
    | true =>
      have hend : (a.advance time).current = c.geometry := by
        rw [Transition.current_of_finished hf, Transition.advance_target, htarget]
      rw [hend]
      rfl
    | false => rfl

theorem Shows.toggle_draws {l : Layout Rat} (h : c.Shows l) (hp : c.Placed)
    (hc : c.Consistent) : Draws c.surface c.toggle := by
  obtain ⟨es, a, harrange⟩ := h.arrange?_isOk hc.usable hc.counted
    c.presentation.toggleArrangement
  have htarget : a.target = es := by
    obtain ⟨-, rfl⟩ := Transition.make?_eq_ok.1 (arrange?_eq_ok.1 harrange).2
    rfl
  rw [toggle_animated h.layout harrange]
  exact ((hp.arranged hc h harrange).advance_draws rfl htarget 0.0).map _

end

end Chart

/-! ## Operations -/

namespace Operation

/-- Whether the operation is given a response that cannot be read. -/
def unreadable {α : Type} : Operation α → Bool
  | renderPayload response _ =>
    match Payload.ofValue response with
    | .ok _ => false
    | .error (.missingData _) => false
    | .error _ => true
  | _ => false

section
variable {op : Operation Rat} {c : Chart Rat (HeadlessSurface Rat)}

/-- The operation leaves the surface and the frame as they are; it only fails if it has
    nothing it can read. -/
structure Rests (op : Operation Rat) (c : Chart Rat (HeadlessSurface Rat)) : Prop where
  isOk : (op.perform c).1.isOk = !op.unreadable
  rendered : op.rendered? = none
  surface : (op.perform c).2.surface = c.surface
  frame : (op.perform c).2.frame = c.frame

/-- The operation draws the chart, which then has records or was told so. -/
structure Redraws (op : Operation Rat) (c : Chart Rat (HeadlessSurface Rat)) : Prop where
  draws : Chart.Draws c.surface (op.perform c)
  readable : op.unreadable = false
  rendered : op.rendered?.isSome = true ∨ c.data ≠ []

/-- An operation that succeeds without doing anything. -/
theorem Rests.of_idle (h : ∃ x, op.perform c = (.ok x, c))
    (hunreadable : op.unreadable = false) (hrendered : op.rendered? = none) : op.Rests c := by
  obtain ⟨x, h⟩ := h
  exact ⟨by rw [h, hunreadable]; rfl, hrendered, by rw [h], by rw [h]⟩

/-- Without records there is nothing to toggle. -/
theorem toggle_blank (hblank : c.Blank) : c.toggle.1.isOk = true ∧
    c.toggle.2.surface = c.surface ∧ c.toggle.2.frame = c.frame := by
  unfold Chart.toggle
  simp only [hblank.layout, Chart.frame, Chart.frameOf]
  exact ⟨rfl, trivial, trivial⟩

/-- An operation that renders records does nothing else. -/
theorem perform_of_rendered {data : List Datum} {grouping : Grouping}
    (h : op.rendered? = some (data, grouping)) : op.unreadable = false ∧
      op.perform c = ((c.render data grouping).1.map fun _ => none,
        (c.render data grouping).2) := by
  cases op with
  | render data' grouping' =>
    cases h
    exact ⟨rfl, rfl⟩
  | renderPayload response grouping' =>
    cases hpayload : Payload.ofValue response with
    | ok data' =>
      simp only [rendered?, hpayload] at h
      cases h
      simp only [unreadable, perform, perform.silent, Chart.renderPayload, hpayload, and_self]
    | error e =>
      cases e with
      | missingData field =>
        simp only [rendered?, hpayload] at h
        cases h
        simp only [unreadable, perform, perform.silent, Chart.renderPayload, hpayload, and_self]
      | _ => simp [rendered?, hpayload] at h
  | _ => cases h

/-- A response that cannot be read changes nothing. -/
theorem perform_of_unreadable {response : Json.Value} {grouping : Grouping}
    (h : (renderPayload response grouping : Operation Rat).rendered? = none)
    (c : Chart Rat (HeadlessSurface Rat)) :
    (renderPayload response grouping : Operation Rat).unreadable = true ∧
      ∃ e, (renderPayload response grouping).perform c = (.error e, c) := by
  cases hpayload : Payload.ofValue response with
  | ok data => simp [rendered?, hpayload] at h
  | error e =>
    cases e with
    | missingData field => simp [rendered?, hpayload] at h
    | _ =>
      simp only [unreadable, perform, perform.silent, Chart.renderPayload, hpayload]
      exact ⟨trivial, _, rfl⟩

/-- An operation that renders nothing draws if there are records that move. -/
theorem outcome_of_not_rendered (hrendered : op.rendered? = none) (hc : c.Consistent)
    (hp : c.Placed) : op.Redraws c ∨ op.Rests c := by
  cases op with
  | render data grouping => cases hrendered
  | renderPayload response grouping =>
    obtain ⟨hunreadable, e, he⟩ := perform_of_unreadable hrendered c
    exact .inr ⟨by rw [he, hunreadable]; rfl, hrendered, by rw [he], by rw [he]⟩
  | toggle =>
    obtain hblank | ⟨l, hshows⟩ := hc.shows
    · obtain ⟨hok, hsurface, hframe⟩ := toggle_blank hblank
      exact .inr ⟨(isOk_map _ _).trans hok, rfl, hsurface, hframe⟩
    · exact .inl ⟨(hshows.toggle_draws hp hc).map _, rfl, .inr hshows.nonempty⟩
  | handle input =>
    cases input with
    | chartBody =>
      obtain hblank | ⟨l, hshows⟩ := hc.shows
      · obtain ⟨hok, hsurface, hframe⟩ := toggle_blank hblank
        exact .inr ⟨(isOk_map _ _).trans ((isOk_map _ _).trans hok), rfl, hsurface, hframe⟩
      · exact .inl ⟨((hshows.toggle_draws hp hc).map _).map _, rfl, .inr hshows.nonempty⟩
    | outlierCheckbox => exact .inr (.of_idle ⟨none, rfl⟩ rfl rfl)
  | advance time =>
    cases ha : c.animation with
    | none =>
      refine .inr (.of_idle ⟨some (.inr false), ?_⟩ rfl rfl)
      simp only [perform, Chart.advance, ha]
      rfl
    | some a =>
      have hnonempty := hc.nonempty_of_animation ha
      exact .inl ⟨(hp.advance_draws ha (hc.target ha) time).map _, rfl, .inr hnonempty⟩
  | finish =>
    cases ha : c.animation with
    | none =>
      refine .inr (.of_idle ⟨none, ?_⟩ rfl rfl)
      simp only [perform, perform.silent, Chart.finish, ha]
      rfl
    | some a =>
      have hnonempty := hc.nonempty_of_animation ha
      refine .inl ⟨?_, rfl, .inr hnonempty⟩
      simp only [perform, perform.silent, Chart.finish, ha]
      exact ((hp.advance_draws ha (hc.target ha) a.duration).map _).map _

/-- Every operation draws the chart, or leaves what is shown as it is. -/
theorem outcome (hop : op.Counted) (hc : c.Consistent) (hp : c.Placed) :
    op.Redraws c ∨ op.Rests c := by
  cases hrendered : op.rendered? with
  | some rendered =>
    obtain ⟨hreadable, he⟩ := perform_of_rendered (c := c) hrendered
    have hdraws := hp.render_draws hc (hop.rendered hrendered) rendered.2
    exact .inl ⟨he ▸ hdraws.map _, hreadable, .inl (hrendered ▸ rfl)⟩
  | none => exact outcome_of_not_rendered hrendered hc hp

end

end Operation

/-! ## Runs -/

section
variable {c : Chart Rat (HeadlessSurface Rat)} {surface : HeadlessSurface Rat}
  {config : Config Rat}

/-- The records are those that were rendered last. -/
theorem Chart.data_after (hc : Chart.make? surface config = .ok c) (ops : List (Operation Rat)) :
    (c.after ops).data = ((lastRendered ops).getD ([], .project)).1 := by
  have hrecords : _ = (c.after ops).data := congrArg Prod.fst (c.records_after ops).symm
  obtain ⟨-, rfl⟩ := Chart.make?_eq_ok.1 hc
  exact hrecords.symm

/-- Once records have been rendered, the surface shows the frame of the chart. -/
theorem Chart.surface_after (hc : Chart.make? surface config = .ok c)
    {ops : List (Operation Rat)} (hops : ∀ op ∈ ops, op.Counted) :
    (c.after ops).surface.frame =
      if (lastRendered ops).isSome then some (c.after ops).frame else surface.frame := by
  refine Operation.counted_induction (P := fun ops => (c.after ops).surface.frame =
    if (lastRendered ops).isSome then some (c.after ops).frame else surface.frame) ?_
    (fun ops op hbefore hop ih => ?_) hops
  · obtain ⟨-, rfl⟩ := Chart.make?_eq_ok.1 hc
    rfl
  · rw [Chart.after_concat, lastRendered_concat, Option.isSome_or]
    obtain hredraws | hrests := op.outcome hop (consistent_after hc hbefore)
      (placed_after hc hbefore)
    · have hrendered : (op.rendered?.isSome || (lastRendered ops).isSome) = true := by
        rw [Bool.or_eq_true]
        refine hredraws.rendered.imp_right fun hne => ?_
        by_contra hnone
        rw [Option.not_isSome_iff_eq_none] at hnone
        rw [Chart.data_after hc, hnone] at hne
        exact hne rfl
      rw [hrendered, if_pos rfl]
      exact hredraws.draws.frame
    · rw [hrests.rendered, hrests.surface, hrests.frame, ih]
      rfl

end

/-! ## Frames -/

section
variable {σ : Type} {c : Chart Rat σ}

/-- Every record has its three bars and counts in the frame. -/
theorem Chart.Consistent.body_frame (hc : c.Consistent) :
    ∃ p : Picture Rat, p.data = c.data ∧ c.frame.body = p.body c.config c.shown ∧
      c.shown.length = c.data.length := by
  obtain hblank | ⟨l, hshows⟩ := hc.shows
  · refine ⟨⟨c.data, c.grouping, []⟩, rfl, ?_, ?_⟩
    · simp [Chart.frame, Chart.frameOf, hblank.layout, Frame.blank, Picture.body, hblank.data,
        Body.empty]
    · simp [Chart.shown, hblank.animation, hblank.geometry, hblank.data]
  · refine ⟨⟨c.data, c.grouping, l.bands.centers⟩, rfl, ?_, hshows.length_shown⟩
    simp only [Chart.frame, Chart.frameOf, hshows.layout]
    rfl

end

/-- A time that is no number does what the time on the clock does. -/
theorem Chart.advance_of_not_finite {α σ : Type} [Scalar α] [Surface σ α] {c : Chart α σ}
    {a : Transition (List (EntityGeometry α)) α} (ha : c.animation = some a) {time : α}
    (h : Scalar.isFinite time = false) : c.advance time = c.advance a.elapsed := by
  simp only [Chart.advance, ha, a.advance_of_not_finite h, a.advance_elapsed]

/-- **What is on the surface of an overview chart.** In exact arithmetic, after any operations
    on a new chart:
    no operation fails, if it is not given a response that cannot be read, and none draws
    more than one frame;
    once records have been rendered, the last frame on the surface is the frame of the chart;
    the frame has three bars and three counts for every record, in the order of the records
    and, for each, of the categories;
    a bar has a size and lies between the top and the bottom of the plot, at rest and in
    any animation, and its count stands above its middle, at the distance of the label gap.
    For doubles, a time that is no number does what the time on the clock does. -/
theorem frames_complete_and_placed {surface : HeadlessSurface Rat} {config : Config Rat}
    {c : Chart Rat (HeadlessSurface Rat)} (hc : Chart.make? surface config = .ok c)
    {ops : List (Operation Rat)} (hops : ∀ op ∈ ops, op.Counted) :
    let c' := c.after ops
    (∀ op : Operation Rat, op.Counted →
      (op.perform c').1.isOk = !op.unreadable ∧
      (op.perform c').2.surface.draws ≤ c'.surface.draws + 1) ∧
    c'.surface.frame = (if (lastRendered ops).isSome then some c'.frame else surface.frame) ∧
    c'.data = ((lastRendered ops).getD ([], .project)).1 ∧
    c'.frame.body.rects.length = 3 * c'.data.length ∧
    c'.frame.body.labels.length = 3 * c'.data.length ∧
    (∀ (i : Nat) (d : Datum) (k : Category), c'.data[i]? = some d →
      ∃ (r : Rect Rat) (t : Label Rat),
        c'.frame.body.rects[3 * i + k.index]? = some r ∧
        c'.frame.body.labels[3 * i + k.index]? = some t ∧
        r.color = k.color ∧ r.link.tooltip = some (d.tooltip k) ∧
        t.text = toString (d.count k) ∧ t.align = .center ∧
        0 ≤ r.width ∧ 0 ≤ r.height ∧ config.plotArea.top ≤ r.y ∧
        r.y + r.height ≤ config.plotArea.top + config.plotArea.height ∧
        t.x = r.x + r.width / 2 ∧ t.y = r.y - config.labelGap) ∧
    (∀ {σ : Type} [Surface σ Float] (c : Chart Float σ)
      (a : Transition (List (EntityGeometry Float)) Float) (time : Float),
      c.animation = some a → time.isFinite = false → c.advance time = c.advance a.elapsed) := by
  intro c'
  have hconsistent : c'.Consistent := Chart.consistent_after hc hops
  have hplaced : c'.Placed := Chart.placed_after hc hops
  have hconfig : c'.config = config := by
    rw [Chart.config_after, (Chart.make?_eq_ok.1 hc).2]
  obtain ⟨p, hdata, hbody, hlength⟩ := hconsistent.body_frame
  rw [hconfig] at hbody
  have hshown : ∀ e ∈ c'.shown, e.Fits config.plotArea.height config.labelGap :=
    hconfig ▸ hplaced.shown hconsistent
  refine ⟨fun op hop => ?_, Chart.surface_after hc hops, Chart.data_after hc ops, ?_, ?_, ?_,
    fun c a time ha htime => Chart.advance_of_not_finite ha htime⟩
  · obtain hredraws | hrests := op.outcome hop hconsistent hplaced
    · rw [hredraws.readable]
      exact ⟨hredraws.draws.isOk, hredraws.draws.draws.le⟩
    · rw [hrests.surface]
      exact ⟨hrests.isOk, Nat.le_succ _⟩
  · rw [hbody, p.rects_body, length_eachBar (hdata ▸ hlength), hdata]
  · rw [hbody, p.labels_body, length_eachBar (hdata ▸ hlength), hdata]
  · intro i d k hd
    obtain ⟨e, he⟩ : ∃ e, c'.shown[i]? = some e :=
      ⟨_, List.getElem?_eq_getElem (hlength ▸ (List.getElem?_eq_some_iff.1 hd).1)⟩
    have hfits : e.Fits config.plotArea.height config.labelGap :=
      hshown e (List.mem_of_getElem? he)
    rw [← hdata] at hd
    rw [hbody, p.rects_body, p.labels_body]
    obtain ⟨htop, hbottom⟩ := p.rect_within (hfits.bars k) d k
    obtain ⟨hx, hy⟩ := p.label_above (c := config) (e.bars.get k) config.labelGap d k
    rw [← hfits.labels k] at hx hy
    exact ⟨_, _, getElem?_eachBar hd he k, getElem?_eachBar hd he k, rfl, rfl, rfl, rfl,
      (hfits.bars k).nonneg_width, (hfits.bars k).nonneg_height, htop, hbottom, hx, hy⟩

/-- Two records of one key, toggled a second time in the animation of the first toggle. -/
theorem frames_complete_and_placed_toggled_twice :
    ∃ c, Chart.make? (HeadlessSurface.initial : HeadlessSurface Rat) Config.standard = .ok c ∧
      let c' := c.after [.render [⟨⟨"7"⟩, ⟨12, 4, 0⟩⟩, ⟨⟨"7"⟩, ⟨0, 9, 0⟩⟩] .user, .toggle,
        .advance 300, .handle .chartBody, .advance 10]
      c'.animation.isSome = true ∧ c'.surface.frame = some c'.frame ∧
        c'.frame.body.rects.length = 6 ∧ c'.frame.body.labels.length = 6 ∧
        (Operation.finish.perform c').1.isOk = true := by
  have hvalid : (Config.standard : Config Rat).validate = .ok () := by decide +kernel
  have hc : Chart.make? (HeadlessSurface.initial : HeadlessSurface Rat) Config.standard =
      .ok ⟨.initial, .standard, ⟨false, .stacked⟩, [], .project, none, [], none⟩ :=
    Chart.make?_eq_ok.2 ⟨hvalid, rfl⟩
  have hcounted : ∀ d ∈ [(⟨⟨"7"⟩, ⟨12, 4, 0⟩⟩ : Datum), ⟨⟨"7"⟩, ⟨0, 9, 0⟩⟩], d.Counted := by
    simp only [List.mem_cons, List.not_mem_nil, or_false, forall_eq_or_imp, forall_eq]
    constructor <;> intro k <;> cases k <;> decide
  have hops : ∀ op ∈ ([.render [⟨⟨"7"⟩, ⟨12, 4, 0⟩⟩, ⟨⟨"7"⟩, ⟨0, 9, 0⟩⟩] .user, .toggle,
      .advance 300, .handle .chartBody, .advance 10] : List (Operation Rat)), op.Counted := by
    simpa [Operation.Counted] using hcounted
  obtain ⟨hok, hframe, hdata, hrects, hlabels, -, -⟩ := frames_complete_and_placed hc hops
  rw [hdata] at hrects hlabels
  exact ⟨_, hc, by decide +kernel, hframe, hrects, hlabels, (hok .finish trivial).1⟩

end CourseCharts.Overview

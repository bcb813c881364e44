/-
  CourseCharts — ticks and markers at one place.

  A tick and the marker of a point meet if the tick has the value of the
  point; then they should be at one place.

  * so it is without an animation, and in an animation that started while the
    chart was at rest;
  * a zoom in the middle of an animation starts with the markers where they are
    shown, but with the ticks where the interrupted animation was to take them;
  * `meeting_position`: hence tick and marker are at one place exactly if the
    marker was at the end of its way when the last zoom was made, or if rounding
    hides the difference;
  * `Chart.WaysMeet.undisturbed`: exact arithmetic hides nothing.
-/
import CourseCharts.Proofs.Scatter.Invariant

namespace CourseCharts.Scatter

variable {α σ : Type} [Scalar α]

open Scalar (Same)

/-! ## Ticks and markers of one value -/

theorem Marker.coordinate_blend (m n : Marker α) (t : α) (dir : Direction) :
    (blend m n t).coordinate dir = blend (m.coordinate dir) (n.coordinate dir) t := by
  cases dir <;> rfl

namespace Projection

variable {points : List (Point α)} {s scales : Scales α} {showOutliers : Bool}
  {xCount yCount xCount' yCount' i : Nat} {p q : Projection α} {dir : Direction} {point : Point α}
  {t : AxisTick α} {m : Marker α}

/-- In a projection of points, a tick is at the marker of its value. -/
theorem Places.meet [LawfulScalar α] (h : p.Places points s showOutliers xCount yCount)
    (hi : points[i]? = some point) (ht : t ∈ p.ticks dir) (hm : p.markers[i]? = some m)
    (hv : Same (point.value showOutliers dir) t.value) :
    Same t.position (m.coordinate dir) := by
  obtain rfl : s.marker showOutliers point = m := Option.some.inj ((h.marker hi).symm.trans hm)
  rw [h.tick ht, s.marker_coordinate]
  exact (s.along dir).pixel_same hv.symm

/-- On the way from `q` to `p`, a marker comes from where it was shown, but a
    tick from the marker of its value in `q`. -/
theorem Start.meet [LawfulScalar α] {a : Transition (Projection α) α}
    {shown : List (Marker α)} (hq : q.Places points s showOutliers xCount yCount)
    (hp : p.Places points scales showOutliers xCount' yCount') (hstart : a.origin.Start p shown s)
    (htarget : a.target = p) (hlength : shown.length = points.length)
    (hf : a.isFinished = false) (hi : points[i]? = some point) (ht : t ∈ a.current.ticks dir)
    (hm : a.current.markers[i]? = some m) (hv : Same (point.value showOutliers dir) t.value) :
    ∃ m₀ n₀ m₁, shown[i]? = some m₀ ∧ q.markers[i]? = some n₀ ∧ p.markers[i]? = some m₁ ∧
      m = blend m₀ m₁ (a.easing.apply (a.elapsed / a.duration)) ∧
      Same t.position
        ((blend n₀ m₁ (a.easing.apply (a.elapsed / a.duration))).coordinate dir) := by
  rw [Transition.current_of_unfinished hf, htarget] at ht hm
  generalize a.easing.apply (a.elapsed / a.duration) = e at ht hm ⊢
  rw [blend_ticks, hstart.ticks, blend_map, List.mem_map] at ht
  obtain ⟨t₁, ht₁, rfl⟩ := ht
  rw [blend_markers, hstart.markers] at hm
  have hlength' : shown.length = p.markers.length := by rw [hlength, hp.markers, List.length_map]
  obtain ⟨m₀, m₁, hm₀, hm₁, rfl⟩ := getElem?_blend hlength' hm
  refine ⟨m₀, _, m₁, hm₀, hq.marker hi, hm₁, rfl, ?_⟩
  rw [Marker.coordinate_blend, s.marker_coordinate]
  exact blend_same ((s.along dir).pixel_same hv.symm) (hp.meet hi ht₁ hm₁ hv) e

end Projection

/-! ## The last zoom -/

namespace Chart

/-- The tick `t` and the marker `m` of the point `i` are shown and have the same
    value. -/
def Meets (c : Chart α σ) (dir : Direction) (i : Nat) (t : AxisTick α) (m : Marker α) : Prop :=
  ∃ d point p, c.dataset = some d ∧ c.shown = some p ∧ d.points[i]? = some point ∧
    t ∈ p.ticks dir ∧ p.markers[i]? = some m ∧
    Same (point.value c.showOutliers dir) t.value

/-- The marker of the point `i` is shown as `m`, on its way to `n`. -/
def OnWay (c : Chart α σ) (i : Nat) (m n : Marker α) : Prop :=
  ∃ p q, c.shown = some p ∧ c.projection = some q ∧ p.markers[i]? = some m ∧
    q.markers[i]? = some n

/-- The marker of the point `i` is shown at the end of its way. -/
def Arrived (c : Chart α σ) (dir : Direction) (i : Nat) : Prop :=
  ∃ m n, c.OnWay i m n ∧ Same (m.coordinate dir) (n.coordinate dir)

/-- The animation of `c` started with a zoom of `c₀`. -/
def StartedIn (c₀ c : Chart α σ) (a : Transition (Projection α) α) : Prop :=
  ∃ d b s q shown p, c₀.Shows d b s q ∧ c₀.shown = some shown ∧ c.dataset = some d ∧
    c.showOutliers = c₀.showOutliers ∧ c.projection = some p ∧
    a.origin.Start p shown.markers s

theorem OnWay.unique {c : Chart α σ} {i : Nat} {m n m' n' : Marker α} (h : c.OnWay i m n)
    (h' : c.OnWay i m' n') : m = m' ∧ n = n' := by
  obtain ⟨p, q, hp, hq, hm, hn⟩ := h
  obtain ⟨p', q', hp', hq', hm', hn'⟩ := h'
  obtain rfl : p = p' := Option.some.inj (hp.symm.trans hp')
  obtain rfl : q = q' := Option.some.inj (hq.symm.trans hq')
  exact ⟨Option.some.inj (hm.symm.trans hm'), Option.some.inj (hn.symm.trans hn')⟩

/-- At rest, every way is at its end. -/
theorem OnWay.eq_of_rest {c : Chart α σ} {i : Nat} {m n : Marker α} (h : c.OnWay i m n)
    (hrest : c.animation = none) : m = n := by
  obtain ⟨p, q, hp, hq, hm, hn⟩ := h
  rw [shown, hrest] at hp
  obtain rfl : q = p := Option.some.inj (hq.symm.trans hp)
  exact Option.some.inj (hm.symm.trans hn)

theorem Shows.startedIn {c : Chart α σ} {d : Dataset α} {b s : Scales α} {q : Projection α}
    (h : c.Shows d b s q) {delta : Zoom α}
    {plan : Zoom α × Projection α × Transition (Projection α) α}
    (hplan : c.zoomPlan? delta = some plan) : StartedIn c (c.zoomed plan) plan.2.2 := by
  obtain ⟨d', b', q', shown, -, hd, hb, hq, hshown, hz⟩ := zoomPlan?_eq_some hplan
  obtain rfl : b = b' := Option.some.inj (h.base.symm.trans hb)
  obtain ⟨zoom, target, a⟩ := plan
  obtain ⟨previous, scales, start, hprevious, -, -, -, hstart, ha⟩ := zoomStep?_eq_ok.1 hz
  obtain rfl : s = previous := Except.ok.inj (h.scales.symm.trans hprevious)
  refine ⟨d, b, s, q, shown, target, h, hshown, h.dataset, rfl, rfl, ?_⟩
  rw [(Transition.make?_eq_ok.1 ha).2]
  exact .of_rebased? hstart

section
variable [Surface σ α]

/-- The chart at the moment of the last zoom that was made; `last` if none
    was. -/
def lastZoomed (c : Chart α σ) (last : Option (Chart α σ)) :
    List (Operation α) → Option (Chart α σ)
  | [] => last
  | op :: ops => lastZoomed (op.perform c).2 (if op.zooms c then some c else last) ops

theorem lastZoomed_concat (c : Chart α σ) (last : Option (Chart α σ))
    (ops : List (Operation α)) (op : Operation α) :
    c.lastZoomed last (ops ++ [op]) =
      if op.zooms (c.after ops) then some (c.after ops) else c.lastZoomed last ops := by
  induction ops generalizing c last with
  | nil => rfl
  | cons op' ops ih => exact ih _ _

/-- The last zoom did not interrupt the marker of the point `i` on its way: the
    chart was at rest then, or the marker had arrived; or all is over now. -/
def Undisturbed (c : Chart α σ) (ops : List (Operation α)) (dir : Direction) (i : Nat) : Prop :=
  (c.after ops).animation = none ∨
    ∃ c₀, c.lastZoomed none ops = some c₀ ∧ (c₀.animation = none ∨ c₀.Arrived dir i)

/-- The way of the marker of the point `i` since the last zoom and the way from
    where it was to be before are at one place now. -/
def WaysMeet (c : Chart α σ) (ops : List (Operation α)) (dir : Direction) (i : Nat) : Prop :=
  ∃ a c₀ m₀ n₀ m₁, (c.after ops).animation = some a ∧ c.lastZoomed none ops = some c₀ ∧
    c₀.OnWay i m₀ n₀ ∧ a.target.markers[i]? = some m₁ ∧
    Same ((blend n₀ m₁ (a.easing.apply (a.elapsed / a.duration))).coordinate dir)
      ((blend m₀ m₁ (a.easing.apply (a.elapsed / a.duration))).coordinate dir)

/-! ## Where an animation starts -/

theorem StartedIn.advance {c₀ c : Chart α σ} {a : Transition (Projection α) α}
    (h : StartedIn c₀ c a) (time : α) : StartedIn c₀ (c.advance time).2 (a.advance time) := by
  obtain ⟨d, b, s, q, shown, p, hshows, hs, hd, ho, hp, hstart⟩ := h
  obtain ⟨_, _, he⟩ := c.advance_eq time
  rw [he]
  exact ⟨d, b, s, q, shown, p, hshows, hs, hd, ho, hp, by simpa⟩

/-- A zoom that is made starts the animation; other operations keep it or end
    it. -/
theorem StartedIn.step {c c' : Chart α σ} {toggles zooms : Bool}
    (hc : c.Blank ∨ ∃ d b s p, c.Shows d b s p) (hstep : Step c toggles zooms c')
    {last : Option (Chart α σ)}
    (hlast : ∀ a, c.animation = some a → ∃ c₀, last = some c₀ ∧ StartedIn c₀ c a)
    {a : Transition (Projection α) α} (ha : c'.animation = some a) :
    ∃ c₀, (if zooms then some c else last) = some c₀ ∧ StartedIn c₀ c' a := by
  cases hstep with
  | idle => exact hlast a ha
  | redrawn dataset =>
    rw [redraw_animation] at ha
    cases ha
  | toggled =>
    rw [redraw_animation] at ha
    cases ha
  | advanced time =>
    obtain ⟨a₀, ha₀, rfl, -⟩ := animation_of_advance ha
    obtain ⟨c₀, hc₀, hstarted⟩ := hlast a₀ ha₀
    exact ⟨c₀, hc₀, hstarted.advance time⟩
  | zoomed hplan =>
    obtain ⟨a₀, ha₀, rfl, -⟩ := animation_of_advance ha
    cases ha₀
    obtain hblank | ⟨d, b, s, p, hshows⟩ := hc
    · obtain ⟨_, _, p, _, _, _, _, hp, _⟩ := zoomPlan?_eq_some hplan
      cases hblank.projection.symm.trans hp
    · exact ⟨c, rfl, (hshows.startedIn hplan).advance 0.0⟩

/-- An animation started when the last zoom was made. -/
theorem startedIn_lastZoomed [LawfulScalar α] {surface : σ} {config : Config α}
    {c : Chart α σ} (hc : make? surface config = .ok c) (ops : List (Operation α))
    {a : Transition (Projection α) α} (ha : (c.after ops).animation = some a) :
    ∃ c₀, c.lastZoomed none ops = some c₀ ∧ StartedIn c₀ (c.after ops) a := by
  induction ops using List.reverseRecOn generalizing a with
  | nil =>
    rw [(make?_eq_ok.1 hc).2] at ha
    cases ha
  | append_singleton ops op ih =>
    rw [after_concat] at ha ⊢
    rw [lastZoomed_concat]
    exact StartedIn.step (consistent_after hc ops).1 (op.step _) (fun _ => ih) ha

/-! ## Ticks and markers of a run -/

/-- How a tick and a marker that meet are placed: together without an animation,
    and else on two ways to one place. -/
theorem Meets.cases [LawfulScalar α] {surface : σ} {config : Config α} {c : Chart α σ}
    (hc : make? surface config = .ok c) {ops : List (Operation α)} {dir : Direction} {i : Nat}
    {t : AxisTick α} {m : Marker α} (h : (c.after ops).Meets dir i t m) :
    ((c.after ops).animation = none ∧ Same t.position (m.coordinate dir)) ∨
    ∃ a c₀ m₀ n₀ m₁, (c.after ops).animation = some a ∧ c.lastZoomed none ops = some c₀ ∧
      c₀.OnWay i m₀ n₀ ∧ a.target.markers[i]? = some m₁ ∧
      m = blend m₀ m₁ (a.easing.apply (a.elapsed / a.duration)) ∧
      Same t.position
        ((blend n₀ m₁ (a.easing.apply (a.elapsed / a.duration))).coordinate dir) := by
  -- from here on, only the state of the chart counts, and what its animation started with
  have hstarted {a} := startedIn_lastZoomed hc ops (a := a)
  obtain ⟨hshows, hrunning⟩ := consistent_after hc ops
  generalize c.after ops = c' at h hstarted hshows hrunning ⊢
  obtain ⟨d, point, p, hd, hshown, hi, ht, hm, hv⟩ := h
  obtain hblank | ⟨d', b, s, p', hshows⟩ := hshows
  · rw [Chart.shown, hblank.animation, hblank.projection] at hshown
    cases hshown
  · obtain rfl : d = d' := Option.some.inj (hd.symm.trans hshows.dataset)
    cases ha : c'.animation with
    | none =>
      rw [Chart.shown, ha, hshows.projection] at hshown
      cases hshown
      exact .inl ⟨rfl, (Projection.Places.of_ofPoints? hshows.build).meet hi ht hm hv⟩
    | some a =>
      rw [Chart.shown, ha] at hshown
      cases hshown
      obtain ⟨c₀, hc₀, d₀, b₀, s₀, q, shown, p, hshows₀, hshown, hd₀, ho, hp, hstart⟩ :=
        hstarted ha
      obtain rfl : d = d₀ := Option.some.inj (hd.symm.trans hd₀)
      obtain rfl : p' = p := Option.some.inj (hshows.projection.symm.trans hp)
      have htarget := (hshows.animation a ha).target
      have hq := Projection.Places.of_ofPoints? hshows₀.build
      rw [← ho] at hq
      obtain ⟨m₀, n₀, m₁, hm₀, hn₀, hm₁, hmarker, htick⟩ :=
        Projection.Start.meet hq (.of_ofPoints? hshows.build) hstart htarget
          (hshows₀.length_markers hshown) (Transition.unfinished_of_lt (hrunning a ha)) hi ht hm
          hv
      rw [← htarget] at hm₁
      have hway : c₀.OnWay i m₀ n₀ := ⟨shown, q, hshown, hshows₀.projection, hm₀, hn₀⟩
      exact .inr ⟨a, c₀, m₀, n₀, m₁, rfl, hc₀, hway, hm₁, hmarker, htick⟩

/-- In exact arithmetic, the two ways only meet at their end. -/
theorem WaysMeet.undisturbed {σ : Type} [Surface σ Rat] {surface : σ} {config : Config Rat}
    {c : Chart Rat σ} (hc : make? surface config = .ok c) {ops : List (Operation Rat)}
    {dir : Direction} {i : Nat} (h : c.WaysMeet ops dir i) : c.Undisturbed ops dir i := by
  obtain ⟨a, c₀, m₀, n₀, m₁, ha, hc₀, hway, -, hmeet⟩ := h
  obtain ⟨hshows, hrunning⟩ := consistent_after hc ops
  obtain hblank | ⟨d, b, s, p, hshows⟩ := hshows
  · cases hblank.animation.symm.trans ha
  · have hprogress := (hshows.animation a ha).timed.progress_lt_one (hrunning a ha)
    rw [Scalar.same_rat, Marker.coordinate_blend, Marker.coordinate_blend,
      blend_right_inj hprogress] at hmeet
    exact .inr ⟨c₀, hc₀, .inr ⟨m₀, n₀, hway, .inl hmeet.symm⟩⟩

end

end Chart

/-- **Where ticks and markers meet.** Whatever was done with a chart, of doubles or of exact
    numbers: a tick is at the marker of a point of its value exactly if the last
    zoom did not interrupt the marker on its way, or if rounding brings it back
    to the way from where it was to be. -/
theorem meeting_position [LawfulScalar α] [Surface σ α] {surface : σ} {config : Config α}
    {c : Chart α σ} (hc : Chart.make? surface config = .ok c) {ops : List (Operation α)}
    {dir : Direction} {i : Nat} {t : AxisTick α} {m : Marker α}
    (h : (c.after ops).Meets dir i t m) :
    Same t.position (m.coordinate dir) ↔ c.Undisturbed ops dir i ∨ c.WaysMeet ops dir i := by
  obtain ⟨hrest, hsame⟩ | ⟨a, c₀, m₀, n₀, m₁, ha, hc₀, hway, hm₁, rfl, htick⟩ := h.cases hc
  · exact iff_of_true hsame (.inl (.inl hrest))
  · constructor
    · intro hsame
      exact .inr ⟨a, c₀, m₀, n₀, m₁, ha, hc₀, hway, hm₁, htick.symm.trans hsame⟩
    · rintro ((hrest | ⟨c₀', hc₀', hrest | ⟨m₀', n₀', hway', hsame⟩⟩) |
        ⟨a', c₀', m₀', n₀', m₁', ha', hc₀', hway', hm₁', hmeet⟩)
      · cases ha.symm.trans hrest
      · obtain rfl : c₀ = c₀' := Option.some.inj (hc₀.symm.trans hc₀')
        obtain rfl := hway.eq_of_rest hrest
        exact htick
      · obtain rfl : c₀ = c₀' := Option.some.inj (hc₀.symm.trans hc₀')
        obtain ⟨rfl, rfl⟩ := hway.unique hway'
        refine htick.trans ?_
        rw [Marker.coordinate_blend, Marker.coordinate_blend]
        exact blend_same hsame.symm (.refl _) _
      · obtain rfl : a = a' := Option.some.inj (ha.symm.trans ha')
        obtain rfl : c₀ = c₀' := Option.some.inj (hc₀.symm.trans hc₀')
        obtain ⟨rfl, rfl⟩ := hway.unique hway'
        obtain rfl : m₁ = m₁' := Option.some.inj (hm₁.symm.trans hm₁')
        exact htick.trans hmeet

/-- A surface that accepts every frame and shows nothing. -/
inductive NullSurface where
  | mk

instance : Surface NullSurface α where
  draw _ s := (.ok (), s)

/-- A chart with a plot of a hundred by a hundred pixels and with few ticks. -/
def Chart.small : Chart Rat NullSurface where
  surface := .mk
  config := { Config.standard with viewport := ⟨350, 210⟩, xTickCount := 1, yTickCount := 1 }
  presentation := .standard
  dataset := none
  base := none
  zoom := .identity
  projection := none
  animation := none

/-- A shift by ten pixels, and the same again in the middle of its animation. -/
def shiftTwice : List (Operation Rat) :=
  let a : Point Rat := ⟨⟨"a"⟩, 0, 0, none, "", ""⟩
  let b : Point Rat := ⟨⟨"b"⟩, 100, 100, none, "", ""⟩
  [.render ⟨[a, b], ⟨"", ""⟩, ⟨"", ""⟩, .project⟩, .zoomBy ⟨1, 10, 0⟩, .advance 500,
    .zoomBy ⟨1, 10, 0⟩]

/-- After the second shift, the tick at zero is where the first one would have
    taken it, and the marker at zero is half the way there. -/
theorem meeting_position_interrupted :
    Chart.make? NullSurface.mk Chart.small.config = .ok Chart.small ∧
    ∃ t m, (Chart.small.after shiftTwice).Meets .x 0 t m ∧ t.position = 10 ∧ m.x = 5 ∧
      ¬ (Chart.small.Undisturbed shiftTwice .x 0 ∨ Chart.small.WaysMeet shiftTwice .x 0) := by
  have hvalid : Chart.small.config.validate.toBool = true := by decide +kernel
  have hc : Chart.make? NullSurface.mk Chart.small.config = .ok Chart.small := by
    refine Chart.make?_eq_ok.2 ⟨?_, rfl⟩
    cases h : Chart.small.config.validate with
    | error e => simp [h, Except.toBool] at hvalid
    | ok => rfl
  have hdata : (Chart.small.after shiftTwice).dataset.map (fun d => d.points.map (·.x))
      = some [0, 100] := by decide +kernel
  have hshown : (Chart.small.after shiftTwice).shown.map (fun p =>
      (p.xTicks.map fun t => (t.value, t.position), p.markers.map (·.x)))
      = some ([(0, 10)], [5, 105]) := by decide +kernel
  obtain ⟨d, hd, hpoints⟩ := Option.map_eq_some_iff.1 hdata
  obtain ⟨p, hp, hplaces⟩ := Option.map_eq_some_iff.1 hshown
  rw [Prod.mk.injEq, List.map_eq_singleton_iff, List.map_eq_cons_iff] at hplaces
  obtain ⟨⟨t, ht, hplace⟩, m, ms, hm, hx, -⟩ := hplaces
  obtain ⟨point, points, hpoint, hvalue, -⟩ := List.map_eq_cons_iff.1 hpoints
  rw [Prod.mk.injEq] at hplace
  have hmeets : (Chart.small.after shiftTwice).Meets .x 0 t m := by
    refine ⟨d, point, p, hd, hp, by rw [hpoint]; rfl, ?_, by rw [hm]; rfl, ?_⟩
    · rw [Projection.ticks, ht]
      exact List.mem_singleton_self t
    · exact .inl (hvalue.trans hplace.1.symm)
  refine ⟨hc, t, m, hmeets, hplace.2, hx, ?_⟩
  rw [← meeting_position hc hmeets, Scalar.same_rat, hplace.2, Marker.coordinate, hx]
  decide

end CourseCharts.Scatter

/-
  CourseCharts — where markers and ticks are placed.

  * `Places.of_ofPoints?`: a projection has the markers and the ticks at the
    pixels of their values;
  * `Start.of_rebased?`: the way to a projection starts at the shown markers and
    at the ticks of the projection on the previous scales;
  * `blend_markers` and `blend_ticks`: in between, there are the markers and the
    ticks of the target.
-/
import CourseCharts.Proofs.Motion
import CourseCharts.Proofs.Scale.Linear
import CourseCharts.Scatter.Projection

namespace CourseCharts.Scatter

variable {α : Type} [Scalar α]

/-- A marker at the values of a point. -/
def Scales.marker (s : Scales α) (showOutliers : Bool) (p : Point α) : Marker α :=
  ⟨s.x.pixel p.x, s.y.pixel (p.shownY showOutliers)⟩

/-- The scale of a direction. -/
def Scales.along (s : Scales α) : Direction → LinearScale α
  | .x => s.x
  | .y => s.y

/-- The place of a marker in a direction. -/
def Marker.coordinate (m : Marker α) : Direction → α
  | .x => m.x
  | .y => m.y

/-- The value of a point in a direction. -/
def Point.value (p : Point α) (showOutliers : Bool) : Direction → α
  | .x => p.x
  | .y => p.shownY showOutliers

/-- The ticks of a direction. -/
def Projection.ticks (p : Projection α) : Direction → List (AxisTick α)
  | .x => p.xTicks
  | .y => p.yTicks

theorem Scales.marker_coordinate (s : Scales α) (showOutliers : Bool) (p : Point α)
    (dir : Direction) :
    (s.marker showOutliers p).coordinate dir
      = (s.along dir).pixel (p.value showOutliers dir) := by
  cases dir <;> rfl

/-- A tick at a value. -/
def AxisTick.at (s : LinearScale α) (value : α) : AxisTick α := ⟨value, s.pixel value⟩

theorem Marker.ofPoint?_eq_ok {s : Scales α} {showOutliers : Bool} (p : Point α)
    (m : Marker α) :
    Marker.ofPoint? s showOutliers p = .ok m ↔
      (Scalar.isFinite p.x = true ∧ Scalar.isFinite (p.shownY showOutliers) = true) ∧
        m = s.marker showOutliers p := by
  simp only [Marker.ofPoint?, bind_eq_ok, pure_eq_ok, LinearScale.toPixel?_eq_ok]
  constructor
  · rintro ⟨_, ⟨hx, rfl⟩, _, ⟨hy, rfl⟩, rfl⟩
    exact ⟨⟨hx, hy⟩, rfl⟩
  · rintro ⟨⟨hx, hy⟩, rfl⟩
    exact ⟨_, ⟨hx, rfl⟩, _, ⟨hy, rfl⟩, rfl⟩

theorem AxisTick.ofValue?_eq_ok {s : LinearScale α} (value : α) (t : AxisTick α) :
    AxisTick.ofValue? s value = .ok t ↔ Scalar.isFinite value = true ∧ t = .at s value := by
  simp only [AxisTick.ofValue?, bind_eq_ok, pure_eq_ok, LinearScale.toPixel?_eq_ok]
  constructor
  · rintro ⟨_, ⟨hv, rfl⟩, rfl⟩
    exact ⟨hv, rfl⟩
  · rintro ⟨hv, rfl⟩
    exact ⟨_, ⟨hv, rfl⟩, rfl⟩

namespace Projection

theorem markers?_eq_ok {points : List (Point α)} {s : Scales α} {showOutliers : Bool}
    {ms : List (Marker α)} :
    markers? points s showOutliers = .ok ms ↔
      (∀ p ∈ points, Scalar.isFinite p.x = true ∧
        Scalar.isFinite (p.shownY showOutliers) = true) ∧
      ms = points.map (s.marker showOutliers) :=
  mapM_eq_ok_map Marker.ofPoint?_eq_ok

theorem ticks?_eq_ok {s : LinearScale α} {values : List α} {ts : List (AxisTick α)} :
    ticks? s values = .ok ts ↔
      (∀ v ∈ values, Scalar.isFinite v = true) ∧ ts = values.map (.at s) :=
  mapM_eq_ok_map AxisTick.ofValue?_eq_ok

/-- What a projection of points consists of. -/
structure Places (p : Projection α) (points : List (Point α)) (s : Scales α)
    (showOutliers : Bool) (xCount yCount : Nat) : Prop where
  markers : p.markers = points.map (s.marker showOutliers)
  xTicks : p.xTicks = (s.x.ticks xCount).map (.at s.x)
  yTicks : p.yTicks = (s.y.ticks yCount).map (.at s.y)
  xPrecision : p.xPrecision = s.x.tickPrecision xCount
  yPrecision : p.yPrecision = s.y.tickPrecision yCount

theorem Places.of_ofPoints? {points : List (Point α)} {s : Scales α} {showOutliers : Bool}
    {xCount yCount : Nat} {p : Projection α}
    (h : ofPoints? points s showOutliers xCount yCount = .ok p) :
    p.Places points s showOutliers xCount yCount := by
  simp only [ofPoints?, bind_eq_ok, pure_eq_ok, markers?_eq_ok, ticks?_eq_ok] at h
  obtain ⟨_, ⟨-, rfl⟩, _, ⟨-, rfl⟩, _, ⟨-, rfl⟩, rfl⟩ := h
  exact ⟨rfl, rfl, rfl, rfl, rfl⟩

theorem Places.tick {p : Projection α} {points : List (Point α)} {s : Scales α}
    {showOutliers : Bool} {xCount yCount : Nat}
    (h : p.Places points s showOutliers xCount yCount) {dir : Direction} {t : AxisTick α}
    (ht : t ∈ p.ticks dir) : t.position = (s.along dir).pixel t.value := by
  cases dir with
  | x =>
    rw [ticks, h.xTicks, List.mem_map] at ht
    obtain ⟨v, -, rfl⟩ := ht
    rfl
  | y =>
    rw [ticks, h.yTicks, List.mem_map] at ht
    obtain ⟨v, -, rfl⟩ := ht
    rfl

theorem Places.marker {p : Projection α} {points : List (Point α)} {s : Scales α}
    {showOutliers : Bool} {xCount yCount i : Nat}
    (h : p.Places points s showOutliers xCount yCount) {point : Point α}
    (hi : points[i]? = some point) : p.markers[i]? = some (s.marker showOutliers point) := by
  rw [h.markers, List.getElem?_map, hi]
  rfl

/-- Where the way to `p` starts. -/
structure Start (start p : Projection α) (shown : List (Marker α)) (previous : Scales α) :
    Prop where
  markers : start.markers = shown
  xTicks : start.xTicks = p.xTicks.map fun t => .at previous.x t.value
  yTicks : start.yTicks = p.yTicks.map fun t => .at previous.y t.value
  xPrecision : start.xPrecision = p.xPrecision
  yPrecision : start.yPrecision = p.yPrecision

theorem Start.of_rebased? {p start : Projection α} {shown : List (Marker α)}
    {previous : Scales α} (h : p.rebased? shown previous = .ok start) :
    start.Start p shown previous := by
  simp only [rebased?, bind_eq_ok, pure_eq_ok, ticks?_eq_ok] at h
  obtain ⟨_, ⟨-, rfl⟩, _, ⟨-, rfl⟩, rfl⟩ := h
  exact ⟨rfl, by simp, by simp, rfl, rfl⟩

theorem Start.ticks {p start : Projection α} {shown : List (Marker α)} {previous : Scales α}
    (h : start.Start p shown previous) (dir : Direction) :
    start.ticks dir = (p.ticks dir).map fun t => .at (previous.along dir) t.value := by
  cases dir with
  | x => exact h.xTicks
  | y => exact h.yTicks

/-! ## On the way -/

@[simp] theorem blend_markers (p q : Projection α) (t : α) :
    (blend p q t).markers = blend p.markers q.markers t := rfl

theorem blend_ticks (p q : Projection α) (t : α) (dir : Direction) :
    (blend p q t).ticks dir = blend (p.ticks dir) (q.ticks dir) t := by
  cases dir <;> rfl

end Projection

/-- At any time there are the markers of the target. -/
theorem length_current_markers (a : Transition (Projection α) α) :
    a.current.markers.length = a.target.markers.length := by
  cases hf : a.isFinished with
  | true => rw [Transition.current_of_finished hf]
  | false => rw [Transition.current_of_unfinished hf, Projection.blend_markers, length_blend]

end CourseCharts.Scatter

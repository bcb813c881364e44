/-
  CourseCharts — projections on their way.

  A projection is blended list by list: its markers, and its ticks of either
  direction.

  * `Projection.getElem?_markers` and `Projection.getElem?_ticks`: if a list has
    the length of its counterpart, its elements are on their way, and ticks keep
    the value of the target;
  * `blends_have_target_shape`: so projections and nested lists always have the
    shape of the target, and in exact arithmetic they go from one to the other.
-/
import CourseCharts.Proofs.Motion.Nested
import CourseCharts.Proofs.Scatter.Projection

namespace CourseCharts.Scatter

/-! ## Lists of a projection -/

namespace Projection

variable {α : Type} [Scalar α] {p q : Projection α} {dir : Direction} {i : Nat}

theorem getElem?_markers (h : p.markers.length = q.markers.length) (t : α) {m n : Marker α}
    (hm : p.markers[i]? = some m) (hn : q.markers[i]? = some n) :
    (blend p q t).markers[i]? = some ⟨m.x + (n.x - m.x) * t, m.y + (n.y - m.y) * t⟩ :=
  getElem?_blend_of_some h t hm hn

theorem getElem?_ticks (h : (p.ticks dir).length = (q.ticks dir).length) (t : α)
    {u v : AxisTick α} (hu : (p.ticks dir)[i]? = some u) (hv : (q.ticks dir)[i]? = some v) :
    ((blend p q t).ticks dir)[i]? =
      some ⟨v.value, u.position + (v.position - u.position) * t⟩ := by
  rw [blend_ticks]
  exact getElem?_blend_of_some h t hu hv

/-- There are the tick values of the target, wherever the ticks are. -/
theorem values_blend (p q : Projection α) (t : α) (dir : Direction) :
    ((blend p q t).ticks dir).map (·.value) = (q.ticks dir).map (·.value) := by
  have hvalues := forall₂_blend_target (R := fun u v : AxisTick α => u.value = v.value)
    (fun _ _ => rfl) (fun _ => rfl) (p.ticks dir) (q.ticks dir) (t := t)
  rw [blend_ticks, ← List.forall₂_eq_eq_eq, List.forall₂_map_left_iff, List.forall₂_map_right_iff]
  exact hvalues

/-- `r` has the shape of `q`.  A list of `p` that has the length of its counterpart in `q` is
    in `r` a part `t` of the way to it, element by element; otherwise the counterpart is. -/
structure Blended (p q r : Projection α) (t : α) : Prop where
  length_markers : r.markers.length = q.markers.length
  markers_of_ne : p.markers.length ≠ q.markers.length → r.markers = q.markers
  marker_of_eq : p.markers.length = q.markers.length → ∀ (i : Nat) (m n : Marker α),
    p.markers[i]? = some m → q.markers[i]? = some n →
      r.markers[i]? = some ⟨m.x + (n.x - m.x) * t, m.y + (n.y - m.y) * t⟩
  values : ∀ dir, (r.ticks dir).map (·.value) = (q.ticks dir).map (·.value)
  ticks_of_ne : ∀ dir, (p.ticks dir).length ≠ (q.ticks dir).length → r.ticks dir = q.ticks dir
  tick_of_eq : ∀ dir, (p.ticks dir).length = (q.ticks dir).length →
    ∀ (i : Nat) (u v : AxisTick α), (p.ticks dir)[i]? = some u → (q.ticks dir)[i]? = some v →
      (r.ticks dir)[i]? = some ⟨v.value, u.position + (v.position - u.position) * t⟩
  xPrecision : r.xPrecision = q.xPrecision
  yPrecision : r.yPrecision = q.yPrecision

theorem blended (p q : Projection α) (t : α) : p.Blended q (blend p q t) t where
  length_markers := length_blend _ _ t
  markers_of_ne h := blend_of_length_ne h t
  marker_of_eq h _ _ _ := getElem?_markers h t
  values := values_blend p q t
  ticks_of_ne dir h := (blend_ticks p q t dir).trans (blend_of_length_ne h t)
  tick_of_eq _ h _ _ _ := getElem?_ticks h t
  xPrecision := rfl
  yPrecision := rfl

end Projection

/-! ## Exact arithmetic -/

instance : ExactBlend (Marker Rat) where
  blend_one a b := congrArg₂ Marker.mk (blend_one a.x b.x) (blend_one a.y b.y)
  blend_self a t := congrArg₂ Marker.mk (blend_self a.x t) (blend_self a.y t)

instance : ExactBlend (AxisTick Rat) where
  blend_one a b := congrArg (AxisTick.mk b.value) (blend_one a.position b.position)
  blend_self a t := congrArg (AxisTick.mk a.value) (blend_self a.position t)

instance : ExactBlend (Projection Rat) where
  blend_one p q := by
    change Projection.mk (blend p.markers q.markers 1) (blend p.xTicks q.xTicks 1)
      (blend p.yTicks q.yTicks 1) q.xPrecision q.yPrecision = q
    simp only [blend_one]
  blend_self p t := by
    change Projection.mk (blend p.markers p.markers t) (blend p.xTicks p.xTicks t)
      (blend p.yTicks p.yTicks t) p.xPrecision p.yPrecision = p
    simp only [blend_self]

theorem Marker.blend_zero (m n : Marker Rat) : blend m n (0 : Rat) = m :=
  congrArg₂ Marker.mk (CourseCharts.blend_zero _ _) (CourseCharts.blend_zero _ _)

/-- At first, ticks are where they come from. -/
theorem Projection.positions_blend_zero {p q : Projection Rat} {dir : Direction}
    (h : (p.ticks dir).length = (q.ticks dir).length) :
    ((blend p q (0 : Rat)).ticks dir).map (·.position) = (p.ticks dir).map (·.position) := by
  rw [blend_ticks]
  exact map_blend (fun u v => CourseCharts.blend_zero u.position v.position) h

/-! ## The shape of the target -/

open Nested in
/-- **What is on its way has the shape of the target.**  At every part of the way, whatever
    the origin is,

    * nested lists have the lengths of the target at every level.  Within lists that match
      their counterparts, a list of another length than its counterpart is the counterpart,
      and one of the same length is blended element by element; so are the numbers there.
      All that is within other lists is that of the target;
    * projections are blended list by list, and always have the tick values and precisions
      of the target.

    In exact arithmetic the way ends at the target, a way from a shape to itself goes
    nowhere, and at its start every number within matching lists is where it comes from. -/
theorem blends_have_target_shape :
    (∀ {α : Type} [Scalar α] (t : α),
      (∀ (depth : Nat) (a b : Nested α depth), SameShape depth (blend a b t) b) ∧
      (∀ {m : Nat} (path : List Nat) (a b : Nested α (m + 1 + path.length))
        (xs ys : List (Nested α m)), Aligned path a b →
        part? path a = some xs → part? path b = some ys →
          (xs.length ≠ ys.length → part? path (blend a b t) = some ys) ∧
          (xs.length = ys.length → part? path (blend a b t)
            = some (List.zipWith (fun x y => blend x y t) xs ys))) ∧
      (∀ (path : List Nat) (a b : Nested α (0 + path.length)) (x y : α), Aligned path a b →
        part? path a = some x → part? path b = some y →
          part? path (blend a b t) = some (x + (y - x) * t)) ∧
      (∀ {m : Nat} (path : List Nat) (a b : Nested α (m + path.length)), ¬ Aligned path a b →
        part? path (blend a b t) = part? path b) ∧
      ∀ p q : Projection α, p.Blended q (blend p q t) t) ∧
    (∀ (depth : Nat) (a b : Nested Rat depth),
      blend a b (1 : Rat) = b ∧ ∀ t : Rat, blend a a t = a) ∧
    (∀ (path : List Nat) (a b : Nested Rat (0 + path.length)) (x : Rat), Aligned path a b →
      part? path a = some x → part? path (blend a b (0 : Rat)) = some x) ∧
    ∀ p q : Projection Rat, blend p q (1 : Rat) = q ∧ (∀ t : Rat, blend p p t = p) ∧
      (p.markers.length = q.markers.length → (blend p q (0 : Rat)).markers = p.markers) ∧
      ∀ dir, (p.ticks dir).length = (q.ticks dir).length →
        ((blend p q (0 : Rat)).ticks dir).map (·.position) = (p.ticks dir).map (·.position) := by
  refine ⟨fun t => ⟨sameShape_blend t, fun {m} path a b xs ys haligned hxs hys => ?_,
    fun path a b x y haligned hx hy => part?_blend_of_aligned t haligned hx hy,
    fun path a b => part?_blend_of_not_aligned t, fun p q => p.blended q t⟩,
    fun depth a b => ⟨blend_one a b, blend_self a⟩,
    fun path a b x haligned hx => part?_blend_zero haligned hx,
    fun p q => ⟨blend_one p q, blend_self p, blend_list_zero Marker.blend_zero,
      fun dir => Projection.positions_blend_zero⟩⟩
  have hpart := part?_blend_of_aligned t haligned hxs hys
  constructor
  · intro h
    exact hpart.trans (congrArg some (blend_of_length_ne h t))
  · intro h
    exact hpart.trans (congrArg some (blend_of_length_eq h t))

open Nested in
/-- Of three lists, the second loses a number: it is at its target at once, while the first
    is half-way there.  An axis gets a tick, and so has the ticks of the target at once. -/
theorem blends_have_target_shape_shortened :
    let a : Nested Rat 2 := ([[0, 2], [4, 4], [6]] : List (List Rat))
    let b : Nested Rat 2 := ([[10, 4], [8], [6]] : List (List Rat))
    let p : Projection Rat := ⟨[⟨0, 0⟩], [⟨1, 0⟩], [], 0, 0⟩
    let q : Projection Rat := ⟨[⟨8, 4⟩], [⟨5, 20⟩, ⟨6, 40⟩], [], 1, 0⟩
    let half : Rat := 1 / 2
    (Aligned (m := 1) [0] a b ∧ part? (m := 1) [0] (blend a b half) = some ([5, 3] : List Rat)) ∧
      (Aligned (m := 1) [1] a b ∧ part? (m := 1) [1] (blend a b half) = some ([8] : List Rat)) ∧
      (¬ Aligned (m := 0) [1, 0] a b ∧
        part? (m := 0) [1, 0] (blend a b half) = some (8 : Rat)) ∧
      (Aligned (m := 0) [0, 1] a b ∧
        part? (m := 0) [0, 1] (blend a b (0 : Rat)) = some (2 : Rat)) ∧
      (blend p q half).markers[0]? = some ⟨4, 2⟩ ∧ (blend p q half).ticks .x = q.ticks .x ∧
      (blend p q (0 : Rat)).markers = p.markers := by
  intro a b p q half
  obtain ⟨hshape, -, hzero, hexact⟩ := blends_have_target_shape
  obtain ⟨-, hlists, -, helsewhere, hprojection⟩ := hshape half
  have hfirst : Aligned (m := 1) [0] a b := ⟨rfl, fun _ _ _ _ => trivial⟩
  have hsecond : Aligned (m := 1) [1] a b := ⟨rfl, fun _ _ _ _ => trivial⟩
  have hnumber : Aligned (m := 0) [0, 1] a b := by
    refine ⟨rfl, ?_⟩
    rintro _ ⟨⟩ _ ⟨⟩
    exact ⟨rfl, fun _ _ _ _ => trivial⟩
  have hlost : ¬ Aligned (m := 0) [1, 0] a b := fun h => by
    have hlength := (h.2 _ rfl _ rfl).1
    cases hlength
  have hp := hprojection p q
  refine ⟨⟨hfirst, ?_⟩, ⟨hsecond, ?_⟩, ⟨hlost, ?_⟩, ⟨hnumber, hzero [0, 1] a b 2 hnumber rfl⟩,
    ?_, hp.ticks_of_ne .x (by decide), (hexact p q).2.2.1 rfl⟩
  · refine ((hlists [0] a b _ _ hfirst rfl rfl).2 rfl).trans (congrArg some ?_)
    change [(0 : Rat) + (10 - 0) * half, 2 + (4 - 2) * half] = [5, 3]
    norm_num [half]
  · exact (hlists [1] a b _ _ hsecond rfl rfl).1 (by decide)
  · exact helsewhere [1, 0] a b hlost
  · rw [hp.marker_of_eq rfl 0 _ _ rfl rfl]
    norm_num [half]

end CourseCharts.Scatter

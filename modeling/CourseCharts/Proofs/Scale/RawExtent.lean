/-
  CourseCharts — extents of any doubles.

  Only the ends of an extent are tested, but no double that is not finite gets
  past them.

  * `Extent.Encloses`: the least and the greatest of some doubles in the total
    order; widening an extent keeps it so;
  * `Extent.finite_iff`: the ends are finite exactly if all doubles are;
  * `Extent.finite_values_have_extent`: so these have an extent, and no others.
-/
import CourseCharts.Proofs.Checks
import CourseCharts.Proofs.Number.TotalOrder
import CourseCharts.Scale.Extent

namespace CourseCharts.Extent

open Double (place totalLE_iff)

/-- The extent is that of the doubles in the total order. -/
structure Encloses (e : Extent Float) (xs : List Float) : Prop where
  min_mem : e.min ∈ xs
  max_mem : e.max ∈ xs
  covers : ∀ x ∈ xs, Scalar.totalLE e.min x = true ∧ Scalar.totalLE x e.max = true

variable {e : Extent Float} {xs : List Float}

theorem encloses_singleton (x : Float) : Encloses ⟨x, x⟩ [x] := by
  refine ⟨List.mem_singleton_self x, List.mem_singleton_self x, fun y hy => ?_⟩
  rw [List.mem_singleton.1 hy]
  exact ⟨totalLE_iff.2 le_rfl, totalLE_iff.2 le_rfl⟩

theorem place_widen (e : Extent Float) (x : Float) :
    place (e.widen x).min = Min.min (place e.min) (place x) ∧
      place (e.widen x).max = Max.max (place e.max) (place x) := by
  unfold Extent.widen
  constructor <;> dsimp only <;> split
  next h => exact (min_eq_left (totalLE_iff.1 h)).symm
  next h => exact (min_eq_right (not_le.1 (mt totalLE_iff.2 h)).le).symm
  next h => exact (max_eq_right (totalLE_iff.1 h)).symm
  next h => exact (max_eq_left (not_le.1 (mt totalLE_iff.2 h)).le).symm

theorem widen_cases (e : Extent Float) (x : Float) :
    ((e.widen x).min = e.min ∨ (e.widen x).min = x) ∧
      ((e.widen x).max = e.max ∨ (e.widen x).max = x) := by
  unfold Extent.widen
  constructor <;> dsimp only <;> split <;> simp

/-- The extent with one more double. -/
theorem Encloses.widen (h : e.Encloses xs) (x : Float) : (e.widen x).Encloses (xs ++ [x]) := by
  obtain ⟨hmin, hmax⟩ := e.widen_cases x
  obtain ⟨hlow, hhigh⟩ := e.place_widen x
  refine ⟨?_, ?_, fun y hy => ?_⟩
  · rcases hmin with hmin | hmin <;> simp [hmin, h.min_mem]
  · rcases hmax with hmax | hmax <;> simp [hmax, h.max_mem]
  · simp only [totalLE_iff, hlow, hhigh]
    rcases List.mem_append.1 hy with hy | hy
    · obtain ⟨hge, hle⟩ := h.covers y hy
      exact ⟨min_le_of_left_le (totalLE_iff.1 hge), le_max_of_le_left (totalLE_iff.1 hle)⟩
    · rw [List.mem_singleton.1 hy]
      exact ⟨min_le_right _ _, le_max_right _ _⟩

theorem Encloses.foldl (h : e.Encloses xs) (ys : List Float) :
    (ys.foldl Extent.widen e).Encloses (xs ++ ys) := by
  induction ys generalizing e xs with
  | nil => rwa [List.append_nil]
  | cons y ys ih =>
    rw [List.append_cons]
    exact ih (h.widen y)

/-- The ends are finite exactly if all doubles are. -/
theorem Encloses.finite_iff (h : e.Encloses xs) :
    (e.min.isFinite = true ∧ e.max.isFinite = true) ↔ ∀ x ∈ xs, x.isFinite = true := by
  constructor
  · rintro ⟨hmin, hmax⟩ x hx
    obtain ⟨hge, hle⟩ := h.covers x hx
    exact Double.isFinite_of_between hmin hmax hge hle
  · intro hall
    exact ⟨hall _ h.min_mem, hall _ h.max_mem⟩

/-- No finite double lies beyond the ends. -/
theorem Encloses.between (h : e.Encloses xs) (hxs : ∀ x ∈ xs, x.isFinite = true) :
    ∀ x ∈ xs, e.min ≤ x ∧ x ≤ e.max := fun x hx =>
  ⟨Double.le_of_totalLE (hxs x hx) (h.covers x hx).1,
    Double.le_of_totalLE (hxs _ h.max_mem) (h.covers x hx).2⟩

/-- Neither the order of finite doubles nor their repetition matters. -/
theorem Encloses.alike {e' : Extent Float} {ys : List Float} (h : e.Encloses xs)
    (h' : e'.Encloses ys) (hxs : ∀ x ∈ xs, x.isFinite = true) (hmem : ∀ x, x ∈ ys ↔ x ∈ xs) :
    (e'.min == e.min) = true ∧ (e'.max == e.max) = true := by
  have hys : ∀ y ∈ ys, y.isFinite = true := fun y hy => hxs y ((hmem y).1 hy)
  have hmin := (hmem _).1 h'.min_mem
  have hmax := (hmem _).1 h'.max_mem
  have hmin' := (hmem _).2 h.min_mem
  have hmax' := (hmem _).2 h.max_mem
  exact ⟨Double.beq_of_le (h'.between hys _ hmin').1 (h.between hxs _ hmin).1,
    Double.beq_of_le (h.between hxs _ hmax).2 (h'.between hys _ hmax').2⟩

/-! ## Values and their errors -/

/-- The ends are looked for first, and tested then. -/
theorem raw?_eq_of_ne_nil (hne : xs ≠ []) :
    ∃ e, e.Encloses xs ∧
      raw? xs = (Quantity.extentValues.require .finite [e.min, e.max]).map fun _ => e := by
  obtain ⟨x, ys, rfl⟩ := List.exists_cons_of_ne_nil hne
  exact ⟨ys.foldl Extent.widen ⟨x, x⟩, (encloses_singleton x).foldl ys, rfl⟩

theorem test_iff (e : Extent Float) :
    (∀ y ∈ [e.min, e.max], Requirement.finite.holds y = true) ↔
      e.min.isFinite = true ∧ e.max.isFinite = true := by
  simp only [List.mem_cons, List.not_mem_nil, or_false, forall_eq_or_imp, forall_eq,
    Requirement.finite_holds]
  rfl

theorem raw?_isOk (hne : xs ≠ []) (hxs : ∀ x ∈ xs, x.isFinite = true) :
    ∃ e, raw? xs = .ok e ∧ e.Encloses xs := by
  obtain ⟨e, he, hraw⟩ := raw?_eq_of_ne_nil hne
  have htest : Quantity.extentValues.require .finite [e.min, e.max] = .ok () :=
    Quantity.require_eq_ok.2 (e.test_iff.2 (he.finite_iff.2 hxs))
  exact ⟨e, by rw [hraw, htest]; rfl, he⟩

theorem raw?_eq_error {x : Float} (hx : x ∈ xs) (hnot : x.isFinite = false) :
    raw? xs = .error (.invalidData (.unmet .extentValues .finite)) := by
  obtain ⟨e, he, hraw⟩ := raw?_eq_of_ne_nil (List.ne_nil_of_mem hx)
  have htest : Quantity.extentValues.require .finite [e.min, e.max]
      = .error (.invalidData (.unmet .extentValues .finite)) := by
    refine Quantity.require_eq_error fun hends => ?_
    rw [he.finite_iff.1 (e.test_iff.1 hends) x hx] at hnot
    cases hnot
  rw [hraw, htest]
  rfl

/-- **Finite values have an extent.** Doubles have an extent exactly if there are any and all of
    them are finite.  Its ends are two of them and no other lies beyond, and in any other order they
    have an extent with ends that compare equal.
    Without doubles, and with a NaN or an infinity anywhere among them, there is an error instead,
    which says so. -/
theorem finite_values_have_extent (xs : List Float) :
    ((∃ e, raw? xs = .ok e) ↔ xs ≠ [] ∧ ∀ x ∈ xs, x.isFinite = true) ∧
      (∀ e, raw? xs = .ok e →
        e.min ∈ xs ∧ e.max ∈ xs ∧ (∀ x ∈ xs, e.min ≤ x ∧ x ≤ e.max) ∧
        ∀ ys, ys.Perm xs → ∃ e', raw? ys = .ok e' ∧
          (e'.min == e.min) = true ∧ (e'.max == e.max) = true) ∧
      (xs = [] → raw? xs = .error (.invalidData .emptyExtent)) ∧
      ∀ x ∈ xs, x.isFinite = false →
        raw? xs = .error (.invalidData (.unmet .extentValues .finite)) := by
  have hok : (∃ e, raw? xs = .ok e) → xs ≠ [] ∧ ∀ x ∈ xs, x.isFinite = true := by
    rintro ⟨e, he⟩
    refine ⟨?_, fun x hx => ?_⟩
    · rintro rfl
      cases he
    · by_contra hnot
      rw [raw?_eq_error hx (Bool.not_eq_true _ ▸ hnot)] at he
      cases he
  refine ⟨⟨hok, fun h => ?_⟩, fun e he => ?_, ?_, fun x hx hnot => raw?_eq_error hx hnot⟩
  · obtain ⟨e, he, -⟩ := raw?_isOk h.1 h.2
    exact ⟨e, he⟩
  · obtain ⟨hne, hxs⟩ := hok ⟨e, he⟩
    obtain ⟨e', he', hencloses⟩ := raw?_isOk hne hxs
    obtain rfl : e' = e := Except.ok.inj (he'.symm.trans he)
    refine ⟨hencloses.min_mem, hencloses.max_mem, hencloses.between hxs, fun ys hys => ?_⟩
    have hmem : ∀ x, x ∈ ys ↔ x ∈ xs := fun x => hys.mem_iff
    obtain ⟨e'', he'', hencloses'⟩ := raw?_isOk (List.ne_nil_of_mem ((hmem _).2 hencloses.min_mem))
      fun y hy => hxs y ((hmem y).1 hy)
    exact ⟨e'', he'', hencloses.alike hencloses' hxs hmem⟩
  · rintro rfl
    rfl

/-- Whichever zero comes first is the least double, and a NaN in the middle is not overlooked. -/
theorem finite_values_have_extent_zeros :
    raw? ([] : List Float) = .error (.invalidData .emptyExtent) ∧
      raw? [-0.0, 0.0, (7.5 : Float)] = .ok ⟨-0.0, 7.5⟩ ∧
      [7.5, 0.0, -0.0].Perm [-0.0, 0.0, (7.5 : Float)] ∧
      (∃ e, raw? [7.5, 0.0, (-0.0 : Float)] = .ok e ∧
        (e.min == -0.0) = true ∧ (e.max == 7.5) = true) ∧
      Float.nan ∈ [1.0, Float.nan, 2.0] ∧ Float.nan.isFinite = false ∧
      raw? [1.0, Float.nan, 2.0] = .error (.invalidData (.unmet .extentValues .finite)) := by
  have hraw : raw? [-0.0, 0.0, (7.5 : Float)] = .ok ⟨-0.0, 7.5⟩ := by rfl
  have hperm := List.reverse_perm [-0.0, 0.0, (7.5 : Float)]
  have hmem : Float.nan ∈ [1.0, Float.nan, 2.0] := List.mem_cons_of_mem _ List.mem_cons_self
  obtain ⟨-, hextent, -⟩ := finite_values_have_extent [-0.0, 0.0, (7.5 : Float)]
  obtain ⟨-, -, -, horder⟩ := hextent _ hraw
  obtain ⟨-, -, -, herror⟩ := finite_values_have_extent [1.0, Float.nan, 2.0]
  obtain ⟨-, -, hempty, -⟩ := finite_values_have_extent []
  exact ⟨hempty rfl, hraw, hperm, horder _ hperm, hmem, rfl, herror _ hmem rfl⟩

end CourseCharts.Extent

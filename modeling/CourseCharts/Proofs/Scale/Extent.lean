/-
  CourseCharts — extents in exact arithmetic.

  * `Extent.Spans`: the least and the greatest of some values; `raw?_rat` says
    that `raw?` finds them;
  * `Extent.padded_lt`: padding makes room, also where all values are equal;
  * `Extent.fit?_rat`: so a padded extent is never empty;
  * `Extent.padded_extents`: where its ends are, and what that comes to.
-/
import CourseCharts.Proofs.Number.Exact
import CourseCharts.Scale.Extent
import Mathlib.Tactic.Ring

namespace CourseCharts.Extent

/-- The extent is that of the values. -/
structure Spans (e : Extent Rat) (xs : List Rat) : Prop where
  min_mem : e.min ∈ xs
  max_mem : e.max ∈ xs
  covers : ∀ x ∈ xs, x ∈ Set.Icc e.min e.max

variable {e : Extent Rat} {xs : List Rat}

theorem Spans.min_le_max (h : e.Spans xs) : e.min ≤ e.max := (h.covers _ h.max_mem).1

/-- Neither the order of the values nor their repetition matters. -/
theorem Spans.unique {e' : Extent Rat} {ys : List Rat} (h : e.Spans xs) (h' : e'.Spans ys)
    (hmem : ∀ x, x ∈ ys ↔ x ∈ xs) : e' = e := by
  have hmin : e'.min = e.min :=
    le_antisymm (h'.covers _ ((hmem _).2 h.min_mem)).1 (h.covers _ ((hmem _).1 h'.min_mem)).1
  have hmax : e'.max = e.max :=
    le_antisymm (h.covers _ ((hmem _).1 h'.max_mem)).2 (h'.covers _ ((hmem _).2 h.max_mem)).2
  cases e
  cases e'
  simp_all

theorem widen_rat (e : Extent Rat) (x : Rat) : e.widen x = ⟨Min.min e.min x, Max.max e.max x⟩ := by
  simp only [widen, Scalar.totalLE_rat, decide_eq_true_eq]
  rw [← min_def, ← max_def]

/-- The extent with one more value. -/
theorem Spans.widen (h : e.Spans xs) (x : Rat) : (e.widen x).Spans (xs ++ [x]) := by
  obtain ⟨hmin, hmax, hcovers⟩ := h
  rw [widen_rat]
  refine ⟨?_, ?_, fun y hy => ?_⟩
  · rcases min_choice e.min x with h | h <;> simp [h, hmin]
  · rcases max_choice e.max x with h | h <;> simp [h, hmax]
  · rcases List.mem_append.1 hy with hy | hy
    · exact ⟨(min_le_left _ _).trans (hcovers y hy).1, (hcovers y hy).2.trans (le_max_left _ _)⟩
    · rw [List.mem_singleton.1 hy]
      exact ⟨min_le_right _ _, le_max_right _ _⟩

theorem Spans.foldl (h : e.Spans xs) (ys : List Rat) :
    (ys.foldl Extent.widen e).Spans (xs ++ ys) := by
  induction ys generalizing e xs with
  | nil => rwa [List.append_nil]
  | cons y ys ih =>
    rw [List.append_cons]
    exact ih (h.widen y)

/-- Values have an extent. -/
theorem raw?_rat (h : xs ≠ []) : ∃ e, raw? xs = .ok e ∧ e.Spans xs := by
  cases xs with
  | nil => exact absurd rfl h
  | cons x xs =>
    have hfirst : (⟨x, x⟩ : Extent Rat).Spans [x] := ⟨by simp, by simp, by simp⟩
    refine ⟨xs.foldl widen ⟨x, x⟩, ?_, hfirst.foldl xs⟩
    simp only [raw?, bind_eq_ok, pure_eq_ok, Quantity.require_eq_ok]
    exact ⟨(), by simp, trivial⟩

/-! ## Padding -/

/-- The padding of an extent. -/
def padding (e : Extent Rat) : Rat := if e.min = e.max then 10 else (e.max - e.min) / 20

theorem padding_pos (h : e.min ≤ e.max) : 0 < e.padding := by
  unfold padding
  split
  next => norm_num
  next hne =>
    have := lt_of_le_of_ne h hne
    linarith

/-- The padded extent, held at zero and at a hundred. -/
theorem padded_rat (e : Extent Rat) :
    e.padded =
      { min := if 0 ≤ e.min then Max.max (e.min - e.padding) 0 else e.min - e.padding
        max := if e.max ≤ 100 then Min.min (e.max + e.padding) 100 else e.max + e.padding } := by
  have hpadding : (if e.min == e.max then 10.0 else 0.05 * e.span) = e.padding := by
    simp only [beq_iff_eq, padding, span]
    split
    next => norm_num
    next =>
      norm_num
      ring
  simp only [padded, hpadding, Scalar.larger_rat, Scalar.smaller_rat, Exact.zero]
  norm_num

theorem padded_min_le (h : e.min ≤ e.max) : e.padded.min ≤ e.min := by
  have := padding_pos h
  rw [padded_rat]
  dsimp only
  split
  next hmin => exact max_le (by linarith) hmin
  next => linarith

theorem le_padded_max (h : e.min ≤ e.max) : e.max ≤ e.padded.max := by
  have := padding_pos h
  rw [padded_rat]
  dsimp only
  split
  next hmax => exact le_min (by linarith) hmax
  next => linarith

/-- There is room between the padded ends. -/
theorem padded_lt (h : e.min ≤ e.max) : e.padded.min < e.padded.max := by
  have hpos := padding_pos h
  rw [padded_rat]
  dsimp only
  split
  next hmin =>
    split
    next => exact max_lt (lt_min (by linarith) (by linarith)) (lt_min (by linarith) (by norm_num))
    next => exact max_lt (by linarith) (by linarith)
  next hmin =>
    split
    next => exact lt_min (by linarith) (by linarith)
    next => linarith

/-- Values have a padded extent, which holds them all and is not empty. -/
theorem fit?_rat (h : xs ≠ []) :
    ∃ e, fit? xs = .ok e ∧ e.min < e.max ∧ ∀ x ∈ xs, x ∈ Set.Icc e.min e.max := by
  obtain ⟨e, he, hspans⟩ := raw?_rat h
  have hle := hspans.min_le_max
  refine ⟨e.padded, by simp [fit?, he, Except.map], padded_lt hle, fun x hx => ?_⟩
  obtain ⟨hmin, hmax⟩ := hspans.covers x hx
  exact ⟨(padded_min_le hle).trans hmin, hmax.trans (le_padded_max hle)⟩

/-- The lower end, unless it is held at zero. -/
theorem padded_min_cases (e : Extent Rat) :
    e.padded.min = e.min - e.padding ∨ 0 ≤ e.min ∧ e.padded.min = 0 := by
  rw [padded_rat]
  dsimp only
  split
  next hmin =>
    rcases max_choice (e.min - e.padding) 0 with h | h
    · exact .inl h
    · exact .inr ⟨hmin, h⟩
  next => exact .inl rfl

/-- The upper end, unless it is held at a hundred. -/
theorem padded_max_cases (e : Extent Rat) :
    e.padded.max = e.max + e.padding ∨ e.max ≤ 100 ∧ e.padded.max = 100 := by
  rw [padded_rat]
  dsimp only
  split
  next hmax =>
    rcases min_choice (e.max + e.padding) 100 with h | h
    · exact .inl h
    · exact .inr ⟨hmax, h⟩
  next => exact .inl rfl

/-- The extent of one value gets a width of ten, even where it is held at one end. -/
theorem ten_le_padded_span (h : e.min = e.max) : 10 ≤ e.padded.max - e.padded.min := by
  have hpadding : e.padding = 10 := if_pos h
  have hmax := le_padded_max h.le
  rcases e.padded_min_cases with hmin | ⟨hmin, hzero⟩
  · linarith
  · rcases e.padded_max_cases with htop | ⟨-, htop⟩ <;> linarith

/-- **Padded extents.** Let `a` be the least and `b` the greatest of some values.  Their padded
    extent reaches a twentieth of the span beyond both, or ten if there is no span, but never
    from `a ≥ 0` below zero and never from `b ≤ 100` beyond a hundred.
    So it is not empty, and at least ten wide for a single value; it contains all values; if no
    value is negative, or none is above a hundred, it has no such values either; and it does not
    depend on the order of the values or on their repetition. -/
theorem padded_extents {xs : List Rat} (h : xs ≠ []) :
    ∃ a b p q, a ∈ xs ∧ b ∈ xs ∧ (∀ x ∈ xs, a ≤ x ∧ x ≤ b) ∧
      raw? xs = .ok ⟨a, b⟩ ∧ fit? xs = .ok ⟨p, q⟩ ∧
      (let d := if a < b then (b - a) / 20 else 10
       p = (if 0 ≤ a then Max.max 0 (a - d) else a - d) ∧
         q = if b ≤ 100 then Min.min 100 (b + d) else b + d) ∧
      p < q ∧ p ≤ a ∧ b ≤ q ∧
      ((∀ x ∈ xs, 0 ≤ x) → 0 ≤ p) ∧ ((∀ x ∈ xs, x ≤ 100) → q ≤ 100) ∧
      (∀ x ∈ xs, (⟨p, q⟩ : Extent Rat).contains x = true) ∧
      (∀ ys : List Rat, (∀ x, x ∈ ys ↔ x ∈ xs) → fit? ys = .ok ⟨p, q⟩) ∧
      (∀ x, (∀ y ∈ xs, y = x) → 10 ≤ q - p) := by
  obtain ⟨e, he, hspans⟩ := raw?_rat h
  have hle := hspans.min_le_max
  have hmin := padded_min_le hle
  have hmax := le_padded_max hle
  have hpadding : e.padding = if e.min < e.max then (e.max - e.min) / 20 else 10 := by
    rcases hle.eq_or_lt with heq | hlt
    · rw [padding, if_pos heq, if_neg heq.not_lt]
    · rw [padding, if_neg hlt.ne, if_pos hlt]
  have hends : e.padded.min = (if 0 ≤ e.min then Max.max 0 (e.min - e.padding)
        else e.min - e.padding) ∧
      e.padded.max = if e.max ≤ 100 then Min.min 100 (e.max + e.padding)
        else e.max + e.padding := by
    rw [padded_rat, max_comm, min_comm]
    exact ⟨rfl, rfl⟩
  refine ⟨e.min, e.max, e.padded.min, e.padded.max, hspans.min_mem, hspans.max_mem,
    hspans.covers, he, by rw [fit?, he]; rfl, hpadding ▸ hends, padded_lt hle, hmin, hmax,
    fun hnonneg => ?_, fun hhundred => ?_, fun x hx => ?_, fun ys hys => ?_, fun x hx => ?_⟩
  · rw [hends.1, if_pos (hnonneg _ hspans.min_mem)]
    exact le_max_left _ _
  · rw [hends.2, if_pos (hhundred _ hspans.max_mem)]
    exact min_le_left _ _
  · obtain ⟨hlow, hhigh⟩ := hspans.covers x hx
    simp only [contains, Bool.and_eq_true, decide_eq_true_eq]
    exact ⟨hmin.trans hlow, hhigh.trans hmax⟩
  · obtain ⟨e', he', hspans'⟩ := raw?_rat (List.ne_nil_of_mem ((hys _).2 hspans.min_mem))
    rw [fit?, he', hspans.unique hspans' hys]
    rfl
  · exact ten_le_padded_span ((hx _ hspans.min_mem).trans (hx _ hspans.max_mem).symm)

/-- A percentage that is repeated gets a domain of its own, which ends at a hundred. -/
theorem padded_extents_repeated :
    [98, 98, (98 : Rat)] ≠ [] ∧ fit? [98, 98, (98 : Rat)] = .ok ⟨88, 100⟩ ∧
      fit? [(98 : Rat)] = fit? [98, 98, (98 : Rat)] := by
  have hne : [98, 98, (98 : Rat)] ≠ [] := by simp
  obtain ⟨a, b, p, q, ha, hb, -, -, hfit, ⟨hp, hq⟩, -, -, -, -, -, -, horder, -⟩ :=
    padded_extents hne
  obtain rfl : a = 98 := by simpa using ha
  obtain rfl : b = 98 := by simpa using hb
  norm_num at hp hq
  rw [horder [98] (by simp), hfit, hp, hq]
  exact ⟨hne, rfl, rfl⟩

end CourseCharts.Extent

/-
  CourseCharts — where the bands are.

  In exact arithmetic the bands of a scale fill its width, one beside the
  other.

  * `BandScale.position?_eq_some`: the band of a key starts at a multiple of the
    bandwidth, counted by the place of the key;
  * `BandScale.band_within`: no band leaves the width;
  * `BandScale.bands_apart`: the bands of two keys share at most an edge;
  * `BandScale.exists_last_band`: the last band ends with the width.
-/
import CourseCharts.Proofs.Number.Exact
import CourseCharts.Scale.Band
import Mathlib.Data.List.Nodup
import Mathlib.Tactic.FieldSimp

namespace CourseCharts.BandScale

theorem make?_eq_ok {α : Type} [Scalar α] {keys : List String} {width : α} {b : BandScale α} :
    make? keys width = .ok b ↔
      Requirement.positive.holds width = true ∧ b = ⟨keys.eraseDups, width⟩ := by
  simp only [make?, bind_eq_ok, pure_eq_ok, Quantity.require_eq_ok, List.mem_singleton, forall_eq,
    exists_and_left, exists_const]
  exact and_congr_right fun _ => eq_comm

theorem nodup_eraseDups {β : Type} [BEq β] [LawfulBEq β] (xs : List β) : xs.eraseDups.Nodup := by
  match xs with
  | [] => exact List.nodup_nil
  | x :: xs =>
    rw [List.eraseDups_cons, List.nodup_cons]
    exact ⟨by simp [List.mem_eraseDups], nodup_eraseDups _⟩
termination_by xs.length
decreasing_by exact Nat.lt_succ_of_le (List.length_filter_le _ _)

/-- Of distinct elements, each is first found at its place. -/
theorem idxOf?_getElem {β : Type} [BEq β] [LawfulBEq β] {xs : List β} (hnodup : xs.Nodup) {i : Nat}
    (hi : i < xs.length) : xs.idxOf? xs[i] = some i :=
  List.idxOf?_eq_some_iff.2 ⟨hi, rfl, fun _ hj heq => hj.ne (hnodup.getElem_inj_iff.1 heq)⟩

variable {b : BandScale Rat} {key key' : String} {left left' : Rat}

/-- The bands fill the width. -/
theorem size_mul_bandwidth (h : b.keys ≠ []) : b.size * b.bandwidth = b.width := by
  have hsize : (b.size : Rat) ≠ 0 := Nat.cast_ne_zero.2 (List.length_pos_iff.2 h).ne'
  have hempty : b.isEmpty = false := by simpa [isEmpty] using h
  rw [bandwidth, hempty, if_neg Bool.false_ne_true, Scalar.ofNat_rat]
  field_simp

theorem bandwidth_nonneg (h : 0 ≤ b.width) : 0 ≤ b.bandwidth := by
  unfold bandwidth
  split
  next => exact Exact.zero.ge
  next =>
    rw [Scalar.ofNat_rat]
    exact div_nonneg h (Nat.cast_nonneg _)

/-- The band of a key starts where those of the keys before it end. -/
theorem position?_eq_some : b.position? key = some left ↔
    ∃ i, b.keys.idxOf? key = some i ∧ i * b.bandwidth = left := by
  simp only [position?, Option.map_eq_some_iff, Scalar.ofNat_rat]

/-- Every key has a band. -/
theorem position?_isSome : (b.position? key).isSome = true ↔ key ∈ b.keys := by
  rw [position?, Option.isSome_map, List.isSome_idxOf?]

/-- No band leaves the width. -/
theorem band_within (hwidth : 0 ≤ b.width) (h : b.position? key = some left) :
    0 ≤ left ∧ left + b.bandwidth ≤ b.width := by
  obtain ⟨i, hi, rfl⟩ := position?_eq_some.1 h
  obtain ⟨hlt, -, -⟩ := List.idxOf?_eq_some_iff.1 hi
  have hband : 0 ≤ b.bandwidth := bandwidth_nonneg hwidth
  have hcount : (i + 1 : Rat) ≤ b.size := by exact_mod_cast hlt
  refine ⟨mul_nonneg (Nat.cast_nonneg _) hband, ?_⟩
  calc i * b.bandwidth + b.bandwidth = (i + 1) * b.bandwidth := (add_one_mul _ _).symm
    _ ≤ b.size * b.bandwidth := mul_le_mul_of_nonneg_right hcount hband
    _ = b.width := size_mul_bandwidth (List.length_pos_iff.1 (Nat.zero_lt_of_lt hlt))

/-- A band ends where the next one starts, or before. -/
theorem band_le {i j : Nat} (hband : 0 ≤ b.bandwidth) (h : i < j) :
    i * b.bandwidth + b.bandwidth ≤ j * b.bandwidth := by
  rw [← add_one_mul]
  exact mul_le_mul_of_nonneg_right (by exact_mod_cast h) hband

/-- The bands of two keys share at most an edge. -/
theorem bands_apart (hwidth : 0 ≤ b.width) (hkeys : key ≠ key') (h : b.position? key = some left)
    (h' : b.position? key' = some left') :
    left + b.bandwidth ≤ left' ∨ left' + b.bandwidth ≤ left := by
  obtain ⟨i, hi, rfl⟩ := position?_eq_some.1 h
  obtain ⟨j, hj, rfl⟩ := position?_eq_some.1 h'
  have hband : 0 ≤ b.bandwidth := bandwidth_nonneg hwidth
  rcases Nat.lt_trichotomy i j with hlt | rfl | hlt
  · exact .inl (band_le hband hlt)
  · obtain ⟨_, hkey, -⟩ := List.idxOf?_eq_some_iff.1 hi
    obtain ⟨_, hkey', -⟩ := List.idxOf?_eq_some_iff.1 hj
    exact absurd (hkey.symm.trans hkey') hkeys
  · exact .inr (band_le hband hlt)

/-- The last band ends with the width. -/
theorem exists_last_band (hnodup : b.keys.Nodup) (h : b.keys ≠ []) :
    ∃ key ∈ b.keys, ∃ left, b.position? key = some left ∧ left + b.bandwidth = b.width := by
  have hpos : 0 < b.size := List.length_pos_iff.2 h
  have hlast : b.size - 1 < b.keys.length := Nat.sub_lt hpos Nat.one_pos
  have hindex : b.keys.idxOf? b.keys[b.size - 1] = some (b.size - 1) := idxOf?_getElem hnodup hlast
  refine ⟨_, List.getElem_mem hlast, _, position?_eq_some.2 ⟨_, hindex, rfl⟩, ?_⟩
  calc ((b.size - 1 : Nat) : Rat) * b.bandwidth + b.bandwidth
      = ((b.size - 1 + 1 : Nat) : Rat) * b.bandwidth := by
        rw [Nat.cast_succ, add_one_mul]
    _ = b.size * b.bandwidth := by rw [Nat.sub_add_cancel hpos]
    _ = b.width := size_mul_bandwidth h

end CourseCharts.BandScale

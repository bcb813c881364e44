/-
  CourseCharts — bands cut a width into pieces.

  The keys of a scale come in the order of their first occurrence.

  * `BandScale.eraseDups_concat`: a key is added at the end, unless it is there;
  * `BandScale.position?_of_first`: the band of a key starts after those of the
    distinct keys that occur before it;
  * `BandScale.band` is the piece of the width that belongs to a key;
    `BandScale.pairwiseDisjoint_band` and `BandScale.iUnion_band` say that the
    pieces are a partition;
  * `BandScale.bands_partition_width`: this, with the centers of the bands in
    the order of the keys, and with keys that are there already.
-/
import CourseCharts.Proofs.Scale.Band
import Mathlib.Data.Finset.Card
import Mathlib.Data.List.Induction
import Mathlib.Data.Rat.Floor
import Mathlib.Data.Set.Pairwise.Basic
import Mathlib.Order.CompletePartialOrder

namespace CourseCharts.BandScale

/-! ## The order of the keys -/

section
variable {keys before after more : List String} {key : String}

theorem eraseDups_append_of_subset (h : more ⊆ keys) :
    (keys ++ more).eraseDups = keys.eraseDups := by
  have hnone : more.removeAll keys = [] :=
    List.filter_eq_nil_iff.2 fun key hkey => by simpa using h hkey
  rw [List.eraseDups_append, hnone, List.eraseDups_nil, List.append_nil]

theorem eraseDups_append_of_notMem (h : key ∉ before) :
    (before ++ key :: after).eraseDups =
      before.eraseDups ++ key :: ((after.removeAll before).filter (!· == key)).eraseDups := by
  have hfirst : (key :: after).removeAll before = key :: after.removeAll before := by
    rw [List.cons_removeAll, if_pos (by simpa using h)]
  rw [List.eraseDups_append, hfirst, List.eraseDups_cons]

/-- A key is added at the end, unless it is there. -/
theorem eraseDups_concat (keys : List String) (key : String) :
    (keys ++ [key]).eraseDups = if key ∈ keys then keys.eraseDups else keys.eraseDups ++ [key] := by
  split
  next h => exact eraseDups_append_of_subset (by simpa using h)
  next h =>
    rw [eraseDups_append_of_notMem h]
    rfl

theorem length_eraseDups (keys : List String) : keys.eraseDups.length = keys.toFinset.card := by
  have hkeys : keys.eraseDups.toFinset = keys.toFinset := by
    ext key
    simp only [List.mem_toFinset, List.mem_eraseDups]
  rw [← hkeys, List.toFinset_card_of_nodup (nodup_eraseDups keys)]

/-- The place of a key is the number of distinct keys before its first occurrence. -/
theorem idxOf?_eraseDups (h : key ∉ before) :
    (before ++ key :: after).eraseDups.idxOf? key = some before.toFinset.card := by
  rw [eraseDups_append_of_notMem h, ← length_eraseDups]
  refine List.idxOf?_eq_some_iff.2 ⟨by simp, by simp, fun j hj heq => h ?_⟩
  rw [List.getElem_append_left hj] at heq
  exact List.mem_eraseDups.1 (heq ▸ List.getElem_mem hj)

/-- The keys come in the order of their first occurrence. -/
theorem pairwise_eraseDups (keys : List String) :
    keys.eraseDups.Pairwise fun key key' => keys.idxOf key < keys.idxOf key' := by
  induction keys using List.reverseRecOn with
  | nil => exact .nil
  | append_singleton keys last ih =>
    have hindex {key} (hkey : key ∈ keys.eraseDups) :
        (keys ++ [last]).idxOf key = keys.idxOf key :=
      List.idxOf_append_of_mem (List.mem_eraseDups.1 hkey)
    have hkeys : keys.eraseDups.Pairwise fun key key' =>
        (keys ++ [last]).idxOf key < (keys ++ [last]).idxOf key' :=
      ih.imp_of_mem fun hkey hkey' hlt => by rwa [hindex hkey, hindex hkey']
    rw [eraseDups_concat]
    split
    next => exact hkeys
    next hfresh =>
      refine List.pairwise_append.2
        ⟨hkeys, List.pairwise_singleton _ _, fun key hkey key' hkey' => ?_⟩
      obtain rfl := List.mem_singleton.1 hkey'
      rw [hindex hkey, List.idxOf_append_of_notMem hfresh, List.idxOf_cons_self, Nat.add_zero]
      exact List.idxOf_lt_length_of_mem (List.mem_eraseDups.1 hkey)

end

/-! ## Centers -/

section
variable {α : Type} [Scalar α] {b : BandScale α} {key : String} {x : α}

theorem keys_centers (b : BandScale α) : b.centers.map Prod.fst = b.keys := by
  refine List.ext_getElem? fun i => ?_
  simp only [centers, List.getElem?_map, List.getElem?_mapIdx, Option.map_map]
  exact Option.map_id'

/-- The center of a band is half a bandwidth from where it starts. -/
theorem mem_centers (hnodup : b.keys.Nodup) : (key, x) ∈ b.centers ↔
    ∃ left, b.position? key = some left ∧ x = left + b.bandwidth / 2.0 := by
  simp only [centers, List.mem_mapIdx, Prod.mk.injEq, position?, Option.map_eq_some_iff]
  constructor
  · rintro ⟨i, hi, rfl, rfl⟩
    exact ⟨_, ⟨i, idxOf?_getElem hnodup hi, rfl⟩, rfl⟩
  · rintro ⟨_, ⟨i, hindex, rfl⟩, rfl⟩
    obtain ⟨hi, hkey, -⟩ := List.idxOf?_eq_some_iff.1 hindex
    exact ⟨i, hi, hkey, rfl⟩

end

/-! ## The pieces of the width -/

section
variable {b : BandScale Rat} {keys before after : List String} {key : String} {width : Rat}

/-- The band of a key starts after those of the distinct keys that occur before it. -/
theorem position?_of_first (h : key ∉ before) :
    (⟨(before ++ key :: after).eraseDups, width⟩ : BandScale Rat).position? key =
      some (before.toFinset.card * bandwidth ⟨(before ++ key :: after).eraseDups, width⟩) :=
  position?_eq_some.2 ⟨_, idxOf?_eraseDups h, rfl⟩

/-- The pixels of the band of a key. -/
def band (b : BandScale Rat) (key : String) : Set Rat :=
  {x | ∃ left, b.position? key = some left ∧ x ∈ Set.Ico left (left + b.bandwidth)}

/-- No pixel is in two bands. -/
theorem pairwiseDisjoint_band (hwidth : 0 ≤ b.width) (s : Set String) :
    s.PairwiseDisjoint b.band := by
  intro key _ key' _ hne
  refine Set.disjoint_left.2 ?_
  rintro x ⟨left, hleft, hx⟩ ⟨left', hleft', hx'⟩
  rcases bands_apart hwidth hne hleft hleft' with hle | hle
  · exact absurd (hx.2.trans_le hle) hx'.1.not_gt
  · exact absurd (hx'.2.trans_le hle) hx.1.not_gt

/-- Every pixel of the width is in a band, and no other pixel is. -/
theorem iUnion_band (hnodup : b.keys.Nodup) (hkeys : b.keys ≠ []) (hwidth : 0 < b.width) :
    ⋃ key ∈ b.keys, b.band key = Set.Ico 0 b.width := by
  ext x
  simp only [Set.mem_iUnion, exists_prop]
  constructor
  · rintro ⟨key, -, left, hleft, hx⟩
    obtain ⟨hzero, hright⟩ := band_within hwidth.le hleft
    exact ⟨hzero.trans hx.1, hx.2.trans_le hright⟩
  · rintro ⟨hzero, hx⟩
    have hsize := size_mul_bandwidth hkeys
    have hband : 0 < b.bandwidth :=
      pos_of_mul_pos_right (hsize ▸ hwidth) (Nat.cast_nonneg _)
    -- the bands before the pixel are counted
    set i := ⌊x / b.bandwidth⌋₊
    have hfloor : (i : Rat) ≤ x / b.bandwidth := Nat.floor_le (div_nonneg hzero hband.le)
    have hnext : x / b.bandwidth < i + 1 := Nat.lt_floor_add_one _
    rw [le_div_iff₀ hband] at hfloor
    rw [div_lt_iff₀ hband, add_one_mul] at hnext
    have hi : i < b.keys.length := by
      have hlt : (i : Rat) * b.bandwidth < b.size * b.bandwidth :=
        (hfloor.trans_lt hx).trans_eq hsize.symm
      exact_mod_cast lt_of_mul_lt_mul_right hlt hband.le
    exact ⟨b.keys[i], List.getElem_mem hi, _,
      position?_eq_some.2 ⟨i, idxOf?_getElem hnodup hi, rfl⟩, hfloor, hnext⟩

end

/-! ## Partition -/

/-- **Bands partition the width.**  In exact arithmetic the widths that are accepted are the
    positive ones, whatever the keys are and however often they occur, and

    * there are as many bands as distinct keys;
    * the keys of the list, and no others, have a position: there are as many bands before
      it as distinct keys before the first occurrence of the key;
    * the bands of the keys, if there is any, do not overlap and make up the whole width;
    * every key has one center, in the order of the first occurrences and half a bandwidth
      from its position;
    * keys that are there already change nothing. -/
theorem bands_partition_width (keys : List String) (width : Rat) :
    ((∃ b : BandScale Rat, make? keys width = .ok b) ↔ 0 < width) ∧
      ∀ b : BandScale Rat, make? keys width = .ok b →
        b.size = keys.toFinset.card ∧
        (∀ key, (b.position? key).isSome = true ↔ key ∈ keys) ∧
        (∀ before key after, keys = before ++ key :: after → key ∉ before →
          b.position? key = some (before.toFinset.card * b.bandwidth)) ∧
        (keys ≠ [] → {key | key ∈ keys}.PairwiseDisjoint b.band ∧
          ⋃ key ∈ keys, b.band key = Set.Ico 0 width) ∧
        (b.centers.map Prod.fst).Pairwise (fun key key' => keys.idxOf key < keys.idxOf key') ∧
        (∀ key, key ∈ b.centers.map Prod.fst ↔ key ∈ keys) ∧
        (∀ key x, (key, x) ∈ b.centers ↔
          ∃ left, b.position? key = some left ∧ x = left + b.bandwidth / 2) ∧
        ∀ more, more ⊆ keys → make? (keys ++ more) width = .ok b := by
  simp only [make?_eq_ok, Requirement.positive_rat]
  have haccepted : (∃ b : BandScale Rat, 0 < width ∧ b = ⟨keys.eraseDups, width⟩) ↔ 0 < width := by
    constructor
    · rintro ⟨_, hwidth, -⟩
      exact hwidth
    · intro hwidth
      exact ⟨_, hwidth, rfl⟩
  refine ⟨haccepted, ?_⟩
  rintro b ⟨hwidth, rfl⟩
  have hnodup : keys.eraseDups.Nodup := nodup_eraseDups keys
  refine ⟨length_eraseDups keys, fun key => ?_, ?_, fun hkeys => ⟨?_, ?_⟩, ?_, fun key => ?_,
    fun key x => ?_, fun more hmore => ⟨hwidth, ?_⟩⟩
  · rw [position?_isSome, List.mem_eraseDups]
  · rintro before key after rfl hfirst
    exact position?_of_first hfirst
  · exact pairwiseDisjoint_band hwidth.le _
  · have hne : keys.eraseDups ≠ [] := by
      obtain ⟨key, hkey⟩ := List.exists_mem_of_ne_nil keys hkeys
      exact List.ne_nil_of_mem (List.mem_eraseDups.2 hkey)
    have hcover := iUnion_band (b := ⟨keys.eraseDups, width⟩) hnodup hne hwidth
    simpa only [List.mem_eraseDups] using hcover
  · rw [keys_centers]
    exact pairwise_eraseDups keys
  · rw [keys_centers, List.mem_eraseDups]
  · rw [mem_centers hnodup]
    norm_num
  · rw [eraseDups_append_of_subset hmore]

/-- Three keys, two of them repeated, on 300 pixels. -/
theorem bands_partition_width_repeated :
    let keys := ["a", "b", "a", "c", "b"]
    let b : BandScale Rat := ⟨["a", "b", "c"], 300⟩
    make? keys 300 = .ok b ∧ b.size = 3 ∧ b.bandwidth = 100 ∧
      ["c"] ⊆ keys ∧ "c" ∉ ["a", "b", "a"] ∧ b.position? "c" = some 200 ∧
      ⋃ key ∈ keys, b.band key = Set.Ico 0 300 ∧ ("c", 250) ∈ b.centers ∧
      make? (keys ++ ["c"]) 300 = .ok b := by
  intro keys b
  have hb : make? keys 300 = .ok b := make?_eq_ok.2 ⟨by simp, rfl⟩
  obtain ⟨hsize, -, hposition, hpieces, -, -, hcenters, hmore⟩ :=
    (bands_partition_width keys 300).2 b hb
  have hbandwidth : b.bandwidth = 100 := by decide +kernel
  have hc : b.position? "c" = some 200 := by
    rw [hposition ["a", "b", "a"] "c" ["b"] rfl (by decide), hbandwidth]
    decide +kernel
  refine ⟨hb, hsize, hbandwidth, by decide, by decide, hc, (hpieces (by decide)).2, ?_,
    hmore ["c"] (by decide)⟩
  exact (hcenters "c" 250).2 ⟨200, hc, by rw [hbandwidth]; norm_num⟩

end CourseCharts.BandScale

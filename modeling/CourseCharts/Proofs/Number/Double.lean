/-
  CourseCharts — doubles as signs, exponents and mantissas.

  The operations on doubles unpack their arguments, compute with the parts and
  pack the rounded result.

  * `within_pack_round`: a rounded result is finite if it is not too large;
  * `compare_swap`: the order of two finite doubles is known from both sides;
  * `Alike` unpacked doubles are equal, or zeros of any sign; the operations
    take alike arguments to alike results.
-/
import CourseCharts.Number.Scalar
import Mathlib

namespace CourseCharts.Double

open Float.Model Float.Model.UnpackedFloat

/-- The words of doubles. -/
abbrev Word := BitVec Format.binary64.numBits

/-! ## Parts of a word -/

theorem implicit_toNat (m : BitVec 52) : (1#1 ++ m).toNat = 2 ^ 52 + m.toNat := by
  rw [BitVec.toNat_append, ← Nat.shiftLeft_add_eq_or_of_lt m.isLt]
  rfl

theorem log2_le_of_lt {n k : Nat} (h : n < 2 ^ (k + 1)) : n.log2 ≤ k := by
  by_cases hn : n = 0
  · simp [hn]
  · exact Nat.le_of_lt_succ ((Nat.log2_lt hn).2 h)

/-- Shifting to the left adds bits. -/
theorem log2_shiftLeft_le (n k : Nat) : (n <<< k).log2 ≤ n.log2 + k := by
  by_cases hn : n = 0
  · simp [hn]
  · rw [Nat.shiftLeft_eq]
    apply Nat.le_of_lt_succ
    rw [Nat.log2_lt (by positivity), Nat.succ_eq_add_one, Nat.add_right_comm, Nat.pow_add]
    exact Nat.mul_lt_mul_of_pos_right Nat.lt_log2_self (Nat.two_pow_pos k)

theorem toNat_lt_of_ne_neg_one {e : BitVec 11} (he : e ≠ -1#_) : e.toNat < 2047 := by
  have h : e.toNat ≠ 2047 := fun h => he (BitVec.eq_of_toNat_eq h)
  have := e.isLt
  omega

/-- The exponent that a packed double stores. -/
def biased (e : Int) : Nat := (e + 1075).toNat

theorem toNat_bias (e : Int) :
    (e + (Format.binary64.exponentBias : Nat) + (52 : Nat)).toNat = biased e := by
  simp [biased, Format.exponentBias, Int.add_assoc]

/-! ## Bounds -/

/-- A finite number below `2^53 · 2^b`. -/
def Within (b : Int) : UnpackedFloat → Prop
  | .zero _ => True
  | .finite _ m e _ => m < 2 ^ 53 ∧ e ≤ b
  | _ => False

theorem Within.isFinite {b : Int} {u : UnpackedFloat} (h : Within b u) : u.isFinite = true := by
  cases u with
  | zero => rfl
  | finite => rfl
  | _ => exact h.elim

/-- The stored exponent bounds a number, unless all its bits are set. -/
theorem within_unpack {w : Word} {b : Int} (h : ((unpackExponent w).toNat : Int) ≤ b + 1075)
    (hl : -1074 ≤ b) (hu : b ≤ 971) : Within b (UnpackedFloat.unpack Format.binary64 w) := by
  have hmantissa : (@unpackMantissa Format.binary64 w).toNat < 2 ^ 52 := BitVec.isLt _
  have hne : unpackExponent w ≠ -1#_ := by
    intro he
    rw [he] at h
    change ((2047 : Nat) : Int) ≤ _ at h
    omega
  simp only [UnpackedFloat.unpack, if_neg hne]
  split
  next he =>
    split
    · trivial
    · rw [he]
      exact ⟨by omega, by simpa [Format.exponentBias] using hl⟩
  next =>
    refine ⟨by rw [implicit_toNat]; omega, ?_⟩
    simp only [Format.exponentBias]
    omega

/-- The bounds of doubles. -/
theorem within_of_isFinite {x : Float.Model} (h : x.isFinite = true) : Within 971 x.unpack := by
  refine within_unpack ?_ (by decide) le_rfl
  by_cases he : @unpackExponent Format.binary64 x.toBits.toBitVec = -1#_
  · simp only [Float.Model.isFinite, Float.Model.unpack, UnpackedFloat.unpack, if_pos he] at h
    split at h <;> cases h
  · have := toNat_lt_of_ne_neg_one he
    omega

/-- Zeros stay zeros of their sign. -/
theorem unpack_pack_zero (s : Sign) : (Float.Model.pack (.zero s)).unpack = .zero s := by
  cases s <;> rfl

theorem within_pack_zero (b : Int) (s : Sign) : Within b (Float.Model.pack (.zero s)).unpack := by
  rw [unpack_pack_zero]
  trivial

/-- A number whose exponent is small enough is packed as a finite double. -/
theorem within_pack (s : Sign) {m : Nat} (hm : 0 < m) {b e : Int} (he : e ≤ b)
    (hl : -1074 ≤ b) (hu : b ≤ 971) :
    Within b (Float.Model.pack (.finite s m e hm)).unpack := by
  have hb : (biased e : Int) ≤ b + 1075 := by unfold biased; omega
  refine within_unpack ?_ hl hu
  simp only [Float.Model.pack, UnpackedFloat.pack, toNat_bias]
  split
  next h => exact absurd h (by norm_num; omega)
  next =>
    split
    · rw [unpackExponent_packComponents, BitVec.toNat_ofNat, Nat.mod_eq_of_lt (by omega)]
      exact hb
    · rw [unpackExponent_packComponents]
      simp
      omega

/-! ## Rounding -/

theorem shiftRight_mantissa (em : ExtendedMantissa) (n : Nat) :
    (em >>> n).mantissa = em.mantissa / 2 ^ n := by
  change (n.repeat ExtendedMantissa.shiftRightOne em).mantissa = _
  induction n with
  | zero => simp [Nat.repeat]
  | succ n ih =>
    rw [Nat.repeat, ExtendedMantissa.shiftRightOne, ih, Nat.div_div_eq_div_mul, Nat.pow_succ]

theorem ofMantissaAndAccuracy_mantissa (m : Nat) (acc : Accuracy) :
    (ExtendedMantissa.ofMantissaAndAccuracy m acc).mantissa = m := by
  unfold ExtendedMantissa.ofMantissaAndAccuracy
  split <;> rfl

theorem roundedMantissa_le (em : ExtendedMantissa) : em.roundedMantissa ≤ em.mantissa + 1 := by
  unfold ExtendedMantissa.roundedMantissa Accuracy.roundToNearestEven
  split <;> omega

/-- The exponent that a number is shifted to. -/
theorem target_eq (m : Nat) (e : Int) :
    Format.binary64.targetExponent (totalExponent m e) = max (m.log2 + 1 + e - 53) (-1074) := by
  simp [Format.targetExponent, totalExponent, Format.minExponent, Format.mantissaBits]

/-- Shifting a number makes its mantissa fit. -/
theorem shift_spec (m : Nat) (e : Int) (acc : Accuracy) :
    (shiftToTargetExponent Format.binary64 m e acc).1.mantissa < 2 ^ 53
      ∧ (shiftToTargetExponent Format.binary64 m e acc).2
        = max e (max (m.log2 + 1 + e - 53) (-1074)) := by
  simp only [shiftToTargetExponent, shiftToExponent, target_eq, shiftRight_mantissa,
    ofMantissaAndAccuracy_mantissa]
  refine ⟨?_, by omega⟩
  set n := (max (m.log2 + 1 + e - 53) (-1074) - e).toNat with hn
  have hle : m.log2 + 1 ≤ 53 + n := by omega
  rw [Nat.div_lt_iff_lt_mul (Nat.two_pow_pos n), ← Nat.pow_add]
  exact Nat.lt_log2_self.trans_le (Nat.pow_le_pow_right (by decide) hle)

/-- A number that is not too large is rounded to a finite double. -/
theorem within_pack_round (s : Sign) {m : Nat} {b e : Int} (acc : Accuracy) (he : e < b)
    (hm : m.log2 + e < b + 52) (hl : -1074 < b) (hu : b ≤ 971) :
    Within b (Float.Model.pack (roundWithAccuracy Format.binary64 s m e acc)).unpack := by
  obtain ⟨hfit, hexp⟩ := shift_spec m e acc
  simp only [roundWithAccuracy]
  generalize shiftToTargetExponent Format.binary64 m e acc = shifted at hfit hexp ⊢
  -- rounding up may give the mantissa one more bit, and the second shift drops it
  have hr : shifted.1.roundedMantissa.log2 ≤ 53 := by
    have hle := roundedMantissa_le shifted.1
    exact log2_le_of_lt (by omega)
  obtain ⟨-, hexp'⟩ := shift_spec shifted.1.roundedMantissa shifted.2 .exact
  split
  next => exact within_pack_zero b s
  next => exact within_pack s _ (by omega) hl.le hu

theorem within_ofInt {n : Nat} (hn : n < 2 ^ 53) :
    Within 12 (Float.Model.ofInt (n : Int)).unpack := by
  have hlog := log2_le_of_lt hn
  simp only [Float.Model.ofInt, UnpackedFloat.ofInt, UnpackedFloat.normalize]
  split
  next h => exact absurd (Int.compare_eq_lt.1 h) (by omega)
  next => exact within_pack_zero _ _
  next =>
    simp only [UnpackedFloat.round, decreaseExponent, target_eq, Int.toNat_natCast]
    generalize hk : ((0 : Int) - max ((n.log2 : Int) + 1 + 0 - 53) (-1074)).toNat = k
    have := log2_shiftLeft_le n k
    exact within_pack_round _ _ (by omega) (by omega) (by decide) (by decide)

/-- The parts of the number three. -/
def three : UnpackedFloat := .finite .positive (3 * 2 ^ 51) (-51) (by decide)

theorem unpack_three : (3.0 : Float).toModel.unpack = three := rfl

/-- A quotient by a number with as many bits as a mantissa can have. -/
theorem within_div {u : UnpackedFloat} {b f : Int} {n : Nat} (t : Sign) (hn : 0 < n)
    (hu : Within b u) (hn52 : 2 ^ 52 ≤ n) (hn53 : n < 2 ^ 53) (hl : -1074 < b - f - 51)
    (hb : b - f - 51 ≤ 971) :
    Within (b - f - 51) (Float.Model.pack (u.div Format.binary64 (.finite t n f hn))).unpack := by
  cases u with
  | notANumber => exact hu.elim
  | infinity s => exact hu.elim
  | zero s => exact within_pack_zero _ _
  | finite s m e hm =>
    obtain ⟨hmb, heb⟩ := hu
    have hlog := log2_le_of_lt hmb
    have hnlog : n.log2 = 52 :=
      Nat.le_antisymm (log2_le_of_lt hn53) ((Nat.le_log2 hn.ne').2 hn52)
    simp only [UnpackedFloat.div, divCore]
    generalize ht : min (e - f) _ = t
    generalize hk : (e - f - t).toNat = k
    have hte : t < b - f - 51 := by
      simp only [totalExponent, hnlog, Format.targetExponent, Format.minExponent,
        Format.mantissaBits] at ht
      omega
    -- the divisor has as many bits as a mantissa can have, and `k` is what the exponent lacks
    have hq : (m <<< k / n).log2 ≤ k := by
      apply log2_le_of_lt
      rw [Nat.div_lt_iff_lt_mul hn, Nat.shiftLeft_eq, Nat.pow_succ]
      calc m * 2 ^ k < 2 ^ 53 * 2 ^ k := Nat.mul_lt_mul_of_pos_right hmb (Nat.two_pow_pos k)
        _ = 2 ^ k * 2 * 2 ^ 52 := by omega
        _ ≤ 2 ^ k * 2 * n := Nat.mul_le_mul_left _ hn52
    exact within_pack_round _ _ hte (by omega) hl hb

/-- A third of a finite double is finite. -/
theorem isFinite_third {x y : Float} (hx : x.isFinite = true)
    (hy : y.toModel.unpack = three) : (x / y).isFinite = true := by
  suffices h : Within (971 - -51 - 51) (Float.Model.pack (x.toModel.unpack.div Format.binary64
      y.toModel.unpack)).unpack from h.isFinite
  rw [hy]
  exact within_div _ _ (within_of_isFinite hx) (by decide) (by decide) (by decide) (by decide)

/-- A product has at most twice the bits. -/
theorem within_mul {u v : UnpackedFloat} {b c : Int} (hu : Within b u) (hv : Within c v)
    (hl : -1074 < b + c + 54) (hbc : b + c + 54 ≤ 971) :
    Within (b + c + 54) (Float.Model.pack (u.mul Format.binary64 v)).unpack := by
  cases u with
  | notANumber => exact hu.elim
  | infinity => exact hu.elim
  | zero s =>
    cases v with
    | notANumber => exact hv.elim
    | infinity => exact hv.elim
    | _ => exact within_pack_zero _ _
  | finite s m e hm =>
    cases v with
    | notANumber => exact hv.elim
    | infinity => exact hv.elim
    | zero => exact within_pack_zero _ _
    | finite t n f hn =>
      have hmul : m * n < 2 ^ (105 + 1) := by
        rw [show 2 ^ (105 + 1) = 2 ^ 53 * 2 ^ 53 by norm_num]
        exact Nat.mul_lt_mul'' hu.1 hv.1
      have hlog := log2_le_of_lt hmul
      have he := hu.2
      have hf := hv.2
      exact within_pack_round _ _ (by omega) (by omega) hl hbc

/-- A count with at most 53 bits is converted, and multiplied by one. -/
theorem ofNat_of_lt {n : Nat} (hn : n < 2 ^ 53) :
    Float.ofNat n = .ofModel (.ofInt (n : Int)) * Float.exactlyRepresentablePowersOfTen[0] := by
  have hscientific : Float.ofNat n = Float.ofScientific n false 0 := rfl
  have hcount : n.toUInt64.toFloat = .ofModel (.ofInt (n : Int)) := by
    have htoNat : n.toUInt64.toNat = n := Nat.mod_eq_of_lt (by omega)
    simp only [UInt64.toFloat, Float.Model.ofUInt64, UnpackedFloat.ofUInt64, htoNat]
    rfl
  rw [hscientific, Float.ofScientific, dif_pos ⟨hn, by decide⟩]
  simp only [hcount]
  rfl

/-- A larger count is rounded. -/
theorem ofNat_of_le {n : Nat} (hn : 2 ^ 53 ≤ n) :
    Float.ofNat n = .ofModel (.pack
      (roundWithAccuracy Format.binary64 .positive (n <<< 53) (-53) .exact)) := by
  have hpos : n ≠ 0 := by omega
  have hscientific : Float.ofNat n = Float.ofScientific n false 0 := rfl
  rw [hscientific, Float.ofScientific, dif_neg fun h => not_lt.2 hn h.1]
  simp only [Float.Model.ofScientific, UnpackedFloat.ofScientific, dif_neg hpos]
  rw [if_neg (by decide), if_neg (by simp), if_pos (by decide)]
  have hsign : Sign.positive * Sign.positive = Sign.positive := rfl
  simp [UnpackedFloat.mul, Format.mantissaBits, hsign]

/-- The parts of a count with at most 53 bits. -/
theorem within_ofNat {n : Nat} (hn : n < 2 ^ 53) : Within 14 (Float.ofNat n).toModel.unpack := by
  have hone : Float.exactlyRepresentablePowersOfTen[0].toModel.unpack
      = .finite .positive (2 ^ 52) (-52) (by decide) := rfl
  have hbound : Within (-52) Float.exactlyRepresentablePowersOfTen[0].toModel.unpack := by
    rw [hone]
    exact ⟨by decide, le_rfl⟩
  rw [ofNat_of_lt hn]
  exact within_mul (within_ofInt hn) hbound (by decide) (by decide)

/-- Counts with at most 64 bits are finite doubles. -/
theorem isFinite_ofNat {n : Nat} (hn : n < 2 ^ 64) : (Float.ofNat n).isFinite = true := by
  rcases lt_or_ge n (2 ^ 53) with hsmall | hlarge
  · exact (within_ofNat hsmall).isFinite
  · rw [ofNat_of_le hlarge]
    have hlog := log2_shiftLeft_le n 53
    have hlog' := log2_le_of_lt hn
    have hround : Within 971 (Float.Model.pack (roundWithAccuracy Format.binary64
        .positive (n <<< 53) (-53) .exact)).unpack :=
      within_pack_round _ _ (by decide) (by omega) (by decide) le_rfl
    exact hround.isFinite

/-! ## Order -/

theorem compare_swap (u v : UnpackedFloat) : v.compare u = (u.compare v).map Ordering.swap := by
  have hsign (s t : Sign) : compare t s = (compare s t).swap := by cases s <;> cases t <;> rfl
  have hparts (e f : Int) (m n : Nat) :
      (compare f e).then (compare n m) = ((compare e f).then (compare m n)).swap := by
    rw [Ordering.swap_then, Int.compare_swap, Nat.compare_swap]
  cases u with
  | notANumber => cases v <;> rfl
  | infinity s =>
    cases v with
    | infinity t => simp [UnpackedFloat.compare, hsign s t]
    | _ => cases s <;> rfl
  | zero s =>
    cases v with
    | infinity t => cases t <;> rfl
    | finite t => cases t <;> rfl
    | _ => rfl
  | finite s m e hm =>
    cases v with
    | infinity t => cases s <;> cases t <;> rfl
    | zero t => cases s <;> rfl
    | notANumber => cases s <;> rfl
    | finite t n f hn =>
      cases s <;> cases t <;> simp [UnpackedFloat.compare, hparts e f m n]

theorem compare_isSome {u v : UnpackedFloat} (hu : u.isFinite = true) (hv : v.isFinite = true) :
    (u.compare v).isSome = true := by
  cases u with
  | zero s =>
    cases v with
    | finite t => cases t <;> rfl
    | zero => rfl
    | _ => cases hv
  | finite s =>
    cases v with
    | finite t => cases s <;> cases t <;> rfl
    | zero => cases s <;> rfl
    | _ => cases hv
  | _ => cases hu

theorem le_iff {x y : Float} :
    x ≤ y ↔ (x.toModel.unpack.compare y.toModel.unpack).any (·.isLE) = true := by
  change decide (x.toModel ≤ y.toModel) = true ↔ _
  exact decide_eq_true_iff

theorem lt_iff {x y : Float} :
    x < y ↔ x.toModel.unpack.compare y.toModel.unpack = some .lt := by
  change decide (x.toModel < y.toModel) = true ↔ _
  exact decide_eq_true_iff.trans beq_iff_eq

theorem beq_iff {x y : Float} :
    (x == y) = true ↔ x.toModel.unpack.compare y.toModel.unpack = some .eq := by
  change (x.toModel.unpack.compare y.toModel.unpack == some .eq) = true ↔ _
  exact beq_iff_eq

/-- Finite doubles are in order. -/
theorem lt_of_not_le {x y : Float} (hx : x.isFinite = true) (hy : y.isFinite = true)
    (h : ¬ x ≤ y) : y < x := by
  obtain ⟨o, ho⟩ := Option.isSome_iff_exists.1 (compare_isSome hx hy)
  rw [lt_iff, compare_swap, ho]
  rw [le_iff, ho] at h
  cases o with
  | gt => rfl
  | _ => exact absurd rfl h

theorem not_le_of_lt {x y : Float} (h : x < y) : ¬ y ≤ x := by
  rw [le_iff, compare_swap, lt_iff.1 h]
  decide

theorem ne_nan_of_isFinite {x : Float} (h : x.isFinite = true) : x ≠ Float.nan := by
  rintro rfl
  cases h

theorem le_of_lt {x y : Float} (h : x < y) : x ≤ y := by
  rw [le_iff, lt_iff.1 h]
  rfl

theorem le_of_beq {x y : Float} (h : (x == y) = true) : x ≤ y := by
  rw [le_iff, beq_iff.1 h]
  rfl

/-- Doubles that are not above each other compare equal. -/
theorem beq_of_le {x y : Float} (h : x ≤ y) (h' : y ≤ x) : (x == y) = true := by
  rw [le_iff] at h
  rw [le_iff, compare_swap] at h'
  rw [beq_iff]
  generalize x.toModel.unpack.compare y.toModel.unpack = o at h h'
  cases o with
  | none => simp at h
  | some o =>
    cases o with
    | eq => rfl
    | lt => simp at h'
    | gt => simp at h

/-! ## Zeros -/

/-- Equal, or zeros of any sign. -/
inductive Alike : UnpackedFloat → UnpackedFloat → Prop where
  | refl (u : UnpackedFloat) : Alike u u
  | zeros (s t : Sign) : Alike (.zero s) (.zero t)

/-- Numbers that compare equal are alike. -/
theorem alike_of_compare {u v : UnpackedFloat} (h : u.compare v = some .eq) : Alike u v := by
  have hbeq : u.beq v = true := beq_iff_eq.2 h
  rw [beq_iff_ne_notANumber_and_eq] at hbeq
  obtain ⟨-, -, rfl | ⟨rfl, rfl⟩ | ⟨rfl, rfl⟩⟩ := hbeq
  · exact .refl _
  · exact .zeros _ _
  · exact .zeros _ _

section
variable {spec : Format} {u u' v v' : UnpackedFloat}

theorem add_zeros (s t s' t' : Sign) :
    Alike ((zero s).add spec (zero t)) ((zero s').add spec (zero t')) := by
  simp only [UnpackedFloat.add]
  split <;> split <;> apply Alike.zeros

theorem Alike.add (hu : Alike u u') (hv : Alike v v') :
    Alike (u.add spec v) (u'.add spec v') := by
  cases hu with
  | refl =>
    cases hv with
    | refl => exact .refl _
    | zeros t t' =>
      cases u with
      | zero s => exact add_zeros ..
      | _ => exact .refl _
  | zeros s s' =>
    cases hv with
    | refl =>
      cases v with
      | zero t => exact add_zeros ..
      | _ => exact .refl _
    | zeros t t' => exact add_zeros ..

theorem sub_zeros (s t s' t' : Sign) :
    Alike ((zero s).sub spec (zero t)) ((zero s').sub spec (zero t')) := by
  simp only [UnpackedFloat.sub]
  split <;> split <;> apply Alike.zeros

theorem Alike.sub (hu : Alike u u') (hv : Alike v v') :
    Alike (u.sub spec v) (u'.sub spec v') := by
  cases hu with
  | refl =>
    cases hv with
    | refl => exact .refl _
    | zeros t t' =>
      cases u with
      | zero s => exact sub_zeros ..
      | _ => exact .refl _
  | zeros s s' =>
    cases hv with
    | refl =>
      cases v with
      | zero t => exact sub_zeros ..
      | _ => exact .refl _
    | zeros t t' => exact sub_zeros ..

theorem Alike.mul_left (hu : Alike u u') (v : UnpackedFloat) :
    Alike (u.mul spec v) (u'.mul spec v) := by
  cases hu with
  | refl => exact .refl _
  | zeros s s' =>
    cases v with
    | zero t => exact .zeros _ _
    | finite t => exact .zeros _ _
    | _ => exact .refl _

theorem Alike.div_left (hu : Alike u u') (v : UnpackedFloat) :
    Alike (u.div spec v) (u'.div spec v) := by
  cases hu with
  | refl => exact .refl _
  | zeros s s' =>
    cases v with
    | infinity t => exact .zeros _ _
    | finite t => exact .zeros _ _
    | _ => exact .refl _

/-- Alike results are packed alike. -/
theorem Alike.pack (h : Alike u v) :
    Alike (Float.Model.pack u).unpack (Float.Model.pack v).unpack := by
  cases h with
  | refl => exact .refl _
  | zeros s t =>
    rw [unpack_pack_zero, unpack_pack_zero]
    exact .zeros _ _

end

/-- Alike doubles are equal, or compare equal. -/
theorem alike_iff {x y : Float} :
    Alike x.toModel.unpack y.toModel.unpack ↔ x = y ∨ (x == y) = true := by
  constructor
  · intro h
    generalize hu : x.toModel.unpack = u at h
    generalize hv : y.toModel.unpack = v at h
    cases h with
    | refl =>
      have hbits := (unpack_inj_of_valid x.toModel.valid y.toModel.valid).1 (hu.trans hv.symm)
      exact .inl (Float.toBits_inj.1 (UInt64.toBitVec_inj.1 hbits))
    | zeros s t =>
      exact .inr (beq_iff.2 (by rw [hu, hv]; rfl))
  · rintro (rfl | h)
    · exact .refl _
    · exact alike_of_compare (beq_iff.1 h)

end CourseCharts.Double

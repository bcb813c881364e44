/-
  CourseCharts — the integers around a double, as numbers.

  * `floorInt_eq`: `floorInt` is the floor of the number that a finite double is;
  * `ofNat_rounds`: a count is rounded to a double;
  * `isFinite_round`: the whole number nearest to a finite double is a finite
    double, and so is a hundredth of one (`isFinite_hundredth`).
-/
import CourseCharts.Proofs.Number.Arithmetic
import Mathlib.Data.Rat.Floor

namespace CourseCharts.Double

open Float.Model Float.Model.UnpackedFloat
open Scalar (ratOfFloat)

/-! ## Floors -/

theorem floor_div (a b : Nat) : ⌊(a / b : Rat)⌋ = (a / b : Nat) := by
  rw [← Int.natCast_floor_eq_floor (by positivity), Nat.floor_div_eq_div]

/-- Below zero a fraction is rounded away from it. -/
theorem floor_neg_div (a : Nat) {b : Nat} (hb : 0 < b) :
    ⌊-(a / b : Rat)⌋ = -((a / b : Nat) + if a % b = 0 then 0 else 1 : Int) := by
  have hb' : (0 : Rat) < b := by exact_mod_cast hb
  have hdiv : (a : Rat) = b * (a / b : Nat) + (a % b : Nat) := by
    exact_mod_cast (Nat.div_add_mod a b).symm
  have hlt : ((a % b : Nat) : Rat) < b := by exact_mod_cast Nat.mod_lt a hb
  generalize a / b = q at hdiv ⊢
  generalize a % b = r at hdiv hlt ⊢
  have hquotient : (a / b : Rat) = q + r / b := by
    rw [hdiv]
    field_simp
  rw [Int.floor_eq_iff, hquotient]
  split
  next hzero =>
    rw [hzero]
    push_cast
    constructor <;> simp
  next hrest =>
    have hpos : (0 : Rat) < r / b := by
      have : 0 < r := Nat.pos_of_ne_zero hrest
      positivity
    have hone : (r : Rat) / b < 1 := (div_lt_one hb').2 hlt
    push_cast
    constructor <;> linarith

/-- The floor of a finite double. -/
theorem floorInt_eq {x : Float} (hx : x.isFinite = true) : floorInt x = ⌊ratOfFloat x⌋ := by
  change x.toModel.unpack.isFinite = true at hx
  unfold floorInt ratOfFloat
  cases hu : x.toModel.unpack with
  | notANumber => rw [hu] at hx; cases hx
  | infinity => rw [hu] at hx; cases hx
  | zero => simp
  | finite s m e hm =>
    have hunit : 0 < Nat.pow 2 (-e).toNat := Nat.two_pow_pos _
    cases s with
    | positive => exact (floor_div _ _).symm
    | negative => exact (floor_neg_div _ hunit).symm

/-! ## Counts -/

theorem ofInt_rounds (n : Nat) : Rounds n (.ofModel (.ofInt (n : Int))) := by
  refine ⟨_, ?_, rfl⟩
  have hunit : ((n : Int) : Rat) * 2 ^ (0 : Int) = n := by norm_num
  rw [← hunit]
  exact normalize_nearest n 0 .positive

/-- A count is rounded to a double. -/
theorem ofNat_rounds (n : Nat) : Rounds n (Float.ofNat n) := by
  rcases lt_or_ge n (2 ^ 53) with hsmall | hlarge
  · have hone : Float.exactlyRepresentablePowersOfTen[0] = 1.0 := rfl
    rw [ofNat_of_lt hsmall, hone, mul_one]
    exact ofInt_rounds n
  · have hvalue : (n : Rat) = (Sign.positive.apply (n <<< 53 : Nat) : Int) * 2 ^ (-53 : Int) := by
      rw [Sign.apply, Nat.shiftLeft_eq]
      push_cast
      rw [mul_assoc]
      norm_num
    have hlog : 53 ≤ n.log2 := (Nat.le_log2 (by omega)).2 hlarge
    have hlog' : (n <<< 53).log2 = n.log2 + 53 := by
      rw [Nat.shiftLeft_eq, log2_mul_two_pow (by omega)]
    rw [ofNat_of_le hlarge, hvalue]
    refine ⟨_, roundWithAccuracy_nearest _ ?_ (by omega), rfl⟩
    rw [Nat.shiftLeft_eq]
    omega

/-- Counts with at most 53 bits are exact, and so are these with zeros appended. -/
theorem isFinite_ofNat_of_representable {n : Nat} (hn : Representable n) (hlt : n < 2 ^ 1024) :
    (Float.ofNat n).isFinite = true := by
  refine (ofNat_rounds n).isFinite hn ?_
  rw [sub_self, abs_zero, zero_add, Nat.abs_cast]
  exact_mod_cast hlt

/-! ## Nearest whole numbers -/

theorem nearest_natCast (m k : Nat) : nearest m k = m * 2 ^ k := by
  have hpow : Nat.pow 2 k = 2 ^ k := rfl
  simp only [nearest, Int.toNat_natCast, Int.toNat_neg_natCast, hpow, Nat.pow_eq, Nat.pow_zero]
  omega

/-- The whole number nearest to a fraction has no more bits than this. -/
theorem nearest_le {m : Nat} {e : Int} (hm : 0 < m) (he : e < 0) : nearest m e ≤ m := by
  obtain ⟨k, hk⟩ : ∃ k, (-e).toNat = k + 1 := ⟨(-e).toNat - 1, by omega⟩
  have hzero : e.toNat = 0 := by omega
  have hpow (j : Nat) : Nat.pow 2 j = 2 ^ j := rfl
  rw [nearest, hk, hzero, hpow, hpow, Nat.div_le_iff_le_mul (by positivity), Nat.pow_succ,
    Nat.pow_zero, Nat.mul_one]
  have hscale : m * (2 * (2 ^ k * 2)) = 4 * (m * 2 ^ k) := by ring
  have hone : 2 ^ k ≤ m * 2 ^ k := Nat.le_mul_of_pos_left _ hm
  have hunit : m ≤ m * 2 ^ k := Nat.le_mul_of_pos_right _ (Nat.two_pow_pos k)
  rw [hscale]
  omega

/-- The whole number nearest to a double has at most 53 bits, zeros at its end apart. -/
theorem nearest_spec {m : Nat} {e : Int} (hm : 0 < m) (hbits : m < 2 ^ 53) (he : e ≤ 971) :
    Representable (nearest m e) ∧ nearest m e < 2 ^ 1024 := by
  rcases le_or_gt 0 e with hwhole | hfraction
  · obtain ⟨k, rfl⟩ := Int.eq_ofNat_of_zero_le hwhole
    have hroom : 2 ^ (53 + k) ≤ 2 ^ 1024 := pow_le_pow_right₀ one_le_two (by omega)
    rw [nearest_natCast]
    refine ⟨⟨m, k, by omega, by omega, by push_cast; rw [zpow_natCast]⟩, lt_of_lt_of_le ?_ hroom⟩
    rw [Nat.pow_add]
    exact Nat.mul_lt_mul_of_pos_right hbits (Nat.two_pow_pos k)
  · have hle := nearest_le hm hfraction
    have hlimit : 2 ^ 53 ≤ 2 ^ 1024 := pow_le_pow_right₀ one_le_two (by decide)
    exact ⟨⟨nearest m e, 0, by omega, by decide, by simp⟩, (hle.trans_lt hbits).trans_le hlimit⟩

theorem isFinite_neg {x : Float} (hx : x.isFinite = true) : (-x).isFinite = true := by
  have hnearest : Nearest (-ratOfFloat x) x.toModel.unpack.neg :=
    .of_eq (proper_neg (proper_unpack hx)) (by rw [value_negated, value_unpack])
  have hbound := abs_ratOfFloat_le hx
  refine Rounds.isFinite ⟨_, hnearest, rfl⟩ (representable_ratOfFloat hx).neg ?_
  rw [sub_self, abs_zero, zero_add, abs_neg]
  exact (lt_add_of_pos_right _ (by positivity)).trans_le hbound

theorem isFinite_of_neg {x : Float} (h : (-x).isFinite = true) : x.isFinite = true := by
  change (Float.Model.pack x.toModel.unpack.neg).unpack.isFinite = true at h
  change x.toModel.unpack.isFinite = true
  cases hu : x.toModel.unpack with
  | notANumber => rw [hu] at h; cases h
  | infinity s => rw [hu] at h; cases s <;> cases h
  | zero => rfl
  | finite => rfl

theorem Nearest.neg {q : Rat} {u : UnpackedFloat} (h : Nearest q u) : Nearest (-q) u.neg := by
  refine ⟨proper_neg h.proper, fun r hr => ?_⟩
  calc |value u.neg - -q| = |value u - q| := by rw [value_negated, neg_sub_neg, abs_sub_comm]
    _ ≤ |-r - q| := h.least (-r) hr.neg
    _ = |r - -q| := by rw [abs_sub_comm, sub_neg_eq_add, sub_neg_eq_add, add_comm]

/-- An integer is rounded to a double. -/
theorem ofInt_nearest {i : Int} (h : (Float.ofInt i).isFinite = true) :
    Nearest i (Float.ofInt i).toModel.unpack := by
  cases i with
  | ofNat n => exact (ofNat_rounds n).nearest h
  | negSucc n =>
    have hopposite := ((ofNat_rounds (n + 1)).nearest (isFinite_of_neg h)).neg
    have hrounds : Rounds (-(n + 1 : Nat)) (Float.ofInt (.negSucc n)) := ⟨_, hopposite, rfl⟩
    have hcast : ((Int.negSucc n : Int) : Rat) = -(n + 1 : Nat) := by simp [Int.negSucc_eq]
    rw [hcast]
    exact hrounds.nearest h

/-- The nearest whole number does not overflow. -/
theorem isFinite_round {x : Float} (hx : x.isFinite = true) : (round x).isFinite = true := by
  have hwithin := within_of_isFinite (x := x.toModel) hx
  unfold round
  cases hu : x.toModel.unpack with
  | finite s m e hm =>
    rw [hu] at hwithin
    obtain ⟨hrepresentable, hlt⟩ := nearest_spec hm hwithin.1 hwithin.2
    have hfinite := isFinite_ofNat_of_representable hrepresentable hlt
    cases s with
    | positive => exact hfinite
    | negative => exact isFinite_neg hfinite
  | _ => exact hx

/-! ## Hundredths -/

theorem unpack_hundred :
    (100.0 : Float).toModel.unpack = .finite .positive (25 * 2 ^ 48) (-46) (by decide) := rfl

theorem isFinite_hundredth {x : Float} (hx : x.isFinite = true) : (x / 100.0).isFinite = true := by
  suffices h : Within (971 - -46 - 51) (Float.Model.pack (x.toModel.unpack.div Format.binary64
      (100.0 : Float).toModel.unpack)).unpack from h.isFinite
  rw [unpack_hundred]
  exact within_div _ _ (within_of_isFinite hx) (by decide) (by decide) (by decide) (by decide)

/-- What is not finite is not changed by rounding and division. -/
theorem unpack_of_not_isFinite {x : Float} (hx : x.isFinite = false) :
    (round x / 100.0).toModel.unpack = x.toModel.unpack := by
  change x.toModel.unpack.isFinite = false at hx
  have hround : round x = x := by
    unfold round
    cases hu : x.toModel.unpack with
    | finite s m e hm => rw [hu] at hx; cases hx
    | _ => rfl
  rw [hround]
  change (Float.Model.pack (x.toModel.unpack.div Format.binary64
    (100.0 : Float).toModel.unpack)).unpack = _
  rw [unpack_hundred]
  cases hu : x.toModel.unpack with
  | notANumber => rfl
  | infinity s => cases s <;> rfl
  | zero s => rw [hu] at hx; cases hx
  | finite s m e hm => rw [hu] at hx; cases hx

end CourseCharts.Double

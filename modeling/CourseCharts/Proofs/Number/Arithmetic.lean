/-
  CourseCharts — the results of operations on doubles.

  * `add_nearest`, `sub_nearest` and `mul_nearest`: the parts of a result are
    those of a number nearest to the exact result;
  * `unpack_pack`: packing keeps them, unless the number is too large;
  * `Rounds`: so a result `Rounds` the exact one (`add_rounds` and the like), does
    not go past another double (`Rounds.le`), and is finite if it is not too
    large (`Rounds.isFinite`).
-/
import CourseCharts.Proofs.Number.Rounding

namespace CourseCharts.Double

open Float.Model Float.Model.UnpackedFloat
open Scalar (ratOfFloat)

/-! ## Operations -/

section
variable {u v : UnpackedFloat}

/-- A mantissa at a smaller exponent. -/
theorem apply_shiftLeft (s : Sign) (m : Nat) {e g : Int} (h : g ≤ e) :
    ((s.apply (m <<< (e - g).toNat : Nat) : Int) : Rat) * 2 ^ g = s.apply m * 2 ^ e := by
  rw [two_zpow_eq h]
  cases s <;> simp [Sign.apply, Nat.shiftLeft_eq] <;> ring

theorem add_nearest (hu : Proper u) (hv : Proper v) :
    Nearest (value u + value v) (u.add Format.binary64 v) := by
  cases u with
  | notANumber => exact hu.elim
  | infinity => exact hu.elim
  | zero s =>
    rw [value_zero, zero_add]
    cases v with
    | notANumber => exact hv.elim
    | infinity => exact hv.elim
    | zero t =>
      simp only [UnpackedFloat.add]
      split <;> exact .of_eq trivial rfl
    | finite t n f hn => exact .of_eq hv rfl
  | finite s m e hm =>
    cases v with
    | notANumber => exact hv.elim
    | infinity => exact hv.elim
    | zero t =>
      rw [value_zero, add_zero]
      exact .of_eq hu rfl
    | finite t n f hn =>
      have hvalue : value (.finite s m e hm) + value (.finite t n f hn) =
          ((s.apply (m <<< (e - min e f).toNat : Nat) + t.apply (n <<< (f - min e f).toNat : Nat) :
            Int) : Rat) * 2 ^ min e f := by
        rw [Int.cast_add, add_mul, apply_shiftLeft s m (min_le_left e f),
          apply_shiftLeft t n (min_le_right e f)]
        rfl
      rw [hvalue]
      exact normalize_nearest _ _ _

theorem proper_neg (hv : Proper v) : Proper v.neg := by
  cases v <;> exact hv

theorem value_negated (v : UnpackedFloat) : value v.neg = -value v := by
  cases v with
  | finite s m e hm => cases s <;> simp [UnpackedFloat.neg, value, Sign.apply]
  | _ => simp [UnpackedFloat.neg, value]

/-- A difference is the sum with the negated number. -/
theorem sub_eq_add_negated (u v : UnpackedFloat) :
    u.sub Format.binary64 v = u.add Format.binary64 v.neg := by
  have hsign (s t : Sign) : (s == - -t) = (s == t) := by cases s <;> cases t <;> rfl
  have happly (s : Sign) (n : Int) : (-s).apply n = -s.apply n := by
    cases s
    · exact (Int.neg_neg n).symm
    · rfl
  cases u <;> cases v <;>
    simp [UnpackedFloat.sub, UnpackedFloat.add, UnpackedFloat.neg, happly, Int.sub_eq_add_neg]

theorem sub_nearest (hu : Proper u) (hv : Proper v) :
    Nearest (value u - value v) (u.sub Format.binary64 v) := by
  rw [sub_eq_add_negated, sub_eq_add_neg, ← value_negated]
  exact add_nearest hu (proper_neg hv)

theorem mul_nearest (hu : Proper u) (hv : Proper v) :
    Nearest (value u * value v) (u.mul Format.binary64 v) := by
  cases u with
  | notANumber => exact hu.elim
  | infinity => exact hu.elim
  | zero s =>
    rw [value_zero, zero_mul]
    cases v with
    | notANumber => exact hv.elim
    | infinity => exact hv.elim
    | _ => exact .of_eq trivial rfl
  | finite s m e hm =>
    cases v with
    | notANumber => exact hv.elim
    | infinity => exact hv.elim
    | zero =>
      rw [value_zero, mul_zero]
      exact .of_eq trivial rfl
    | finite t n f hn =>
      have hvalue : value (.finite s m e hm) * value (.finite t n f hn) =
          (((s * t).apply (m * n : Nat) : Int) : Rat) * 2 ^ (e + f) := by
        have hsign : ((s * t).apply (m * n : Nat) : Int) = s.apply m * t.apply n := by
          rw [Nat.cast_mul]
          cases s <;> cases t
          · exact (neg_mul_neg _ _).symm
          · exact (neg_mul _ _).symm
          · exact (mul_neg _ _).symm
          · rfl
        rw [hsign, zpow_add₀ two_ne_zero, value, value]
        push_cast
        ring
      rw [hvalue]
      refine roundWithAccuracy_nearest _ (Nat.mul_pos hm hn) ?_
      -- a product with fewer than 53 bits has two factors with the least exponent
      have hlog (h : 2 ^ 52 ≤ m * n) : 52 ≤ (m * n).log2 :=
        (Nat.le_log2 (Nat.mul_pos hm hn).ne').2 h
      rcases hu.2.2 with hfull | hleast
      · have := hlog (hfull.trans (Nat.le_mul_of_pos_right m hn))
        omega
      · rcases hv.2.2 with hfull | hleast'
        · have := hlog (hfull.trans (Nat.le_mul_of_pos_left n hm))
          omega
        · omega

end

/-! ## Packing -/

/-- A double is read back from the word it is packed into, unless it is too large. -/
theorem unpack_pack_finite (s : Sign) {m : Nat} {e : Int} (hm : 0 < m) (h : Canonical m e)
    (he : e ≤ 971) :
    (Float.Model.pack (.finite s m e hm)).unpack = .finite s m e hm := by
  have hparts {m' : Nat} {e' : Int} {hm' : 0 < m'} (hmm : m' = m) (hee : e' = e) :
      UnpackedFloat.finite s m' e' hm' = .finite s m e hm := by
    subst hmm hee
    rfl
  obtain ⟨hbits, hleast, hfull⟩ := h
  have hbiased : (biased e : Int) = e + 1075 := by unfold biased; omega
  have hmantissa : (BitVec.ofNat 52 m).toNat = m % 2 ^ 52 := BitVec.toNat_ofNat ..
  have hexponent : (BitVec.ofNat 11 (biased e)).toNat = biased e := by
    rw [BitVec.toNat_ofNat, Nat.mod_eq_of_lt (by omega)]
  have hne (b : BitVec 11) (hb : b.toNat ≠ biased e) : BitVec.ofNat 11 (biased e) ≠ b := by
    rintro rfl
    exact hb hexponent
  change UnpackedFloat.unpack Format.binary64 (UnpackedFloat.pack Format.binary64 _) = _
  simp only [UnpackedFloat.pack, toNat_bias]
  rw [if_neg (by norm_num; omega)]
  split
  next hlog =>
    have hnormal : 2 ^ 52 ≤ m := by
      have hlog' : m.log2 = 52 := Nat.succ.inj hlog
      rw [← hlog']
      exact Nat.log2_self_le hm.ne'
    simp only [UnpackedFloat.unpack, unpackMantissa_packComponents, unpackExponent_packComponents,
      unpackSign_packComponents, Sign.ofBitVec_toBitVec]
    rw [if_neg (hne _ (by change 2047 ≠ _; omega)), if_neg (hne _ (by change 0 ≠ _; omega))]
    refine hparts ?_ ?_
    · rw [implicit_toNat, hmantissa]
      omega
    · rw [hexponent, hbiased]
      simp [Format.exponentBias]
  next hlog =>
    have hsubnormal : m < 2 ^ 52 := by
      by_contra hge
      have hlog' := (Nat.le_log2 hm.ne').2 (not_lt.1 hge)
      exact hlog (congrArg (· + 1) (Nat.le_antisymm (log2_le_of_lt hbits) hlog'))
    have hmantissa' : BitVec.ofNat 52 m ≠ 0#52 := by
      intro hzero
      have := congrArg BitVec.toNat hzero
      rw [hmantissa, Nat.mod_eq_of_lt hsubnormal] at this
      exact hm.ne' this
    simp only [UnpackedFloat.unpack, unpackMantissa_packComponents, unpackExponent_packComponents,
      unpackSign_packComponents, Sign.ofBitVec_toBitVec]
    rw [if_neg (by decide), if_pos trivial, dif_neg hmantissa']
    refine hparts ?_ ?_
    · rw [hmantissa, Nat.mod_eq_of_lt hsubnormal]
    · rw [hfull.resolve_left (not_le.2 hsubnormal)]
      rfl

theorem pack_too_large (s : Sign) {m : Nat} {e : Int} (hm : 0 < m) (he : 971 < e) :
    (Float.Model.pack (.finite s m e hm)).isFinite = false := by
  change (UnpackedFloat.unpack Format.binary64
    (UnpackedFloat.pack Format.binary64 (.finite s m e hm))).isFinite = false
  have hbiased : 2 ^ 11 ≤ biased e + 1 := by
    unfold biased
    norm_num
    omega
  simp only [UnpackedFloat.pack, toNat_bias]
  rw [if_pos hbiased]
  cases s <;> rfl

section
variable {u : UnpackedFloat}

theorem unpack_pack (h : Proper u) (hfinite : (Float.Model.pack u).isFinite = true) :
    (Float.Model.pack u).unpack = u := by
  cases u with
  | notANumber => exact h.elim
  | infinity => exact h.elim
  | zero s => exact unpack_pack_zero s
  | finite s m e hm =>
    rcases le_or_gt e 971 with he | he
    · exact unpack_pack_finite s hm h he
    · rw [pack_too_large s hm he] at hfinite
      cases hfinite

theorem abs_value (s : Sign) (m : Nat) (e : Int) (hm : 0 < m) :
    |value (.finite s m e hm)| = m * 2 ^ e := by
  cases s <;> simp [value, Sign.apply, abs_mul, abs_zpow]

theorem isFinite_pack (h : Proper u) (hlt : |value u| < 2 ^ 1024) :
    (Float.Model.pack u).isFinite = true := by
  cases u with
  | notANumber => exact h.elim
  | infinity => exact h.elim
  | zero s => cases s <;> rfl
  | finite s m e hm =>
    rcases le_or_gt e 971 with he | he
    · exact congrArg UnpackedFloat.isFinite (unpack_pack_finite s hm h he)
    · exfalso
      have hfull : 2 ^ 52 ≤ m := h.2.2.resolve_right (by omega)
      rw [abs_value, ← not_le] at hlt
      refine hlt ?_
      calc (2 : Rat) ^ 1024 = (2 : Rat) ^ 52 * (2 : Rat) ^ (972 : Int) := by
            rw [zpow_ofNat, ← pow_add]
        _ ≤ (m : Rat) * 2 ^ e := by
            gcongr
            · exact_mod_cast hfull
            · exact one_le_two
            · exact he

end

/-! ## Results of operations -/

/-- A double with the parts of a nearest number, unless these are too large for it. -/
def Rounds (q : Rat) (x : Float) : Prop := ∃ u, Nearest q u ∧ x.toModel = .pack u

namespace Rounds

variable {q r : Rat} {x : Float} (h : Rounds q x)

include h

theorem nearest (hx : x.isFinite = true) : Nearest q x.toModel.unpack := by
  obtain ⟨u, hu, he⟩ := h
  change x.toModel.isFinite = true at hx
  rw [he] at hx ⊢
  rwa [unpack_pack hu.proper hx]

theorem le (hx : x.isFinite = true) (hr : Representable r) (hqr : q ≤ r) : ratOfFloat x ≤ r := by
  rw [← value_unpack]
  exact (h.nearest hx).le hr hqr

theorem ge (hx : x.isFinite = true) (hr : Representable r) (hqr : r ≤ q) : r ≤ ratOfFloat x := by
  rw [← value_unpack]
  exact (h.nearest hx).ge hr hqr

/-- A result is finite if there is a finite number near the exact one. -/
theorem isFinite (hr : Representable r) (hlt : |r - q| + |q| < 2 ^ 1024) : x.isFinite = true := by
  obtain ⟨u, hu, he⟩ := h
  change x.toModel.isFinite = true
  rw [he]
  refine isFinite_pack hu.proper ?_
  have htriangle : |value u| ≤ |value u - q| + |q| := by
    simpa using abs_add_le (value u - q) q
  exact (htriangle.trans (add_le_add_left (hu.least r hr) _)).trans_lt hlt

/-- Up to `2^1022` a result is no larger than a power of two that bounds the exact one. -/
theorem abs_le_zpow {k : Int} (hk : -1074 ≤ k ∧ k ≤ 1022) (hq : |q| ≤ 2 ^ k) :
    x.isFinite = true ∧ |ratOfFloat x| ≤ 2 ^ k := by
  have hpower : Representable (2 ^ k) := ⟨1, k, by decide, hk.1, by simp⟩
  have hfinite : x.isFinite = true := by
    refine h.isFinite representable_zero ?_
    rw [zero_sub, abs_neg, ← two_mul]
    calc 2 * |q| ≤ 2 ^ (1 : Int) * 2 ^ (1022 : Int) := by
          rw [zpow_one]
          gcongr
          exact hq.trans (zpow_le_zpow_right₀ one_le_two hk.2)
      _ = (2 : Rat) ^ (1023 : Int) := by rw [← zpow_add₀ two_ne_zero]; rfl
      _ < 2 ^ 1024 := by
          rw [zpow_ofNat]
          exact pow_lt_pow_right₀ one_lt_two (by decide)
  obtain ⟨hlow, hhigh⟩ := abs_le.1 hq
  exact ⟨hfinite, abs_le.2 ⟨h.ge hfinite hpower.neg hlow, h.le hfinite hpower hhigh⟩⟩

end Rounds

section
variable {x y : Float} (hx : x.isFinite = true) (hy : y.isFinite = true)

include hx

/-- The largest double is one unit below `2^1024`. -/
theorem abs_ratOfFloat_le : |ratOfFloat x| + 2 ^ 971 ≤ 2 ^ 1024 := by
  rw [← value_unpack]
  have hwithin := within_of_isFinite (x := x.toModel) hx
  cases hu : x.toModel.unpack with
  | finite s m e hm =>
    rw [hu] at hwithin
    obtain ⟨hbits, hexponent⟩ := hwithin
    have hm' : (m : Rat) ≤ 2 ^ 53 - 1 := by
      have : m + 1 ≤ 2 ^ 53 := hbits
      have : (m : Rat) + 1 ≤ 2 ^ 53 := by exact_mod_cast this
      linarith
    rw [abs_value]
    calc (m : Rat) * 2 ^ e + 2 ^ 971 ≤ (2 ^ 53 - 1) * 2 ^ (971 : Int) + 2 ^ 971 := by
          gcongr
          exact one_le_two
      _ = 2 ^ 1024 := by rw [zpow_ofNat, sub_one_mul, sub_add_cancel, ← pow_add]
  | _ =>
    change |(0 : Rat)| + 2 ^ 971 ≤ 2 ^ 1024
    rw [abs_zero, zero_add]
    exact pow_le_pow_right₀ one_le_two (by decide)

include hy

theorem add_rounds : Rounds (ratOfFloat x + ratOfFloat y) (x + y) := by
  rw [← value_unpack, ← value_unpack]
  exact ⟨_, add_nearest (proper_unpack hx) (proper_unpack hy), rfl⟩

theorem sub_rounds : Rounds (ratOfFloat x - ratOfFloat y) (x - y) := by
  rw [← value_unpack, ← value_unpack]
  exact ⟨_, sub_nearest (proper_unpack hx) (proper_unpack hy), rfl⟩

theorem mul_rounds : Rounds (ratOfFloat x * ratOfFloat y) (x * y) := by
  rw [← value_unpack, ← value_unpack]
  exact ⟨_, mul_nearest (proper_unpack hx) (proper_unpack hy), rfl⟩

end

end CourseCharts.Double

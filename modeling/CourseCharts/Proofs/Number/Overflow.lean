/-
  CourseCharts — overflow and underflow of doubles.

  A result that is too large for a double becomes infinite, one that is too
  small becomes a zero.

  * `isFinite_of_sub`, `isFinite_of_div` and `div_beq_zero`: a quotient tells
    what its parts were;
  * `mul_pos`: a product of positive numbers is positive, unless it is too
    large or too small, since rounding keeps the sign;
  * `mul_one`: multiplication by one is exact, and `isFinite_mul_zero_add`: a
    multiple of zero does not matter.
-/
import CourseCharts.Proofs.Number.Double

namespace CourseCharts.Double

open Float.Model Float.Model.UnpackedFloat

/-! ## Numbers that are not finite -/

section
variable {u v : UnpackedFloat} {spec : Format}

theorem isFinite_of_pack (h : (Float.Model.pack u).isFinite = true) : u.isFinite = true := by
  cases u with
  | zero => rfl
  | finite => rfl
  | notANumber => cases h
  | infinity s => cases s <;> cases h

theorem right_of_sub (hu : u.isFinite = true) (h : (u.sub spec v).isFinite = true) :
    v.isFinite = true := by
  cases v with
  | zero => rfl
  | finite => rfl
  | notANumber => cases u <;> cases h
  | infinity s =>
    cases u with
    | zero => cases h
    | finite => cases h
    | _ => cases hu

theorem left_of_div (hv : v.isFinite = true) (h : (u.div spec v).isFinite = true) :
    u.isFinite = true := by
  cases u with
  | zero => rfl
  | finite => rfl
  | notANumber => cases h
  | infinity s =>
    cases v with
    | zero => cases h
    | finite => cases h
    | _ => cases hv

theorem div_zero_not_isFinite (u : UnpackedFloat) (s : Sign) :
    (u.div spec (.zero s)).isFinite = false := by
  cases u <;> rfl

/-- Only an infinite divisor has a finite quotient without being finite. -/
theorem zero_of_div (hv : v.isFinite = false) (h : (u.div spec v).isFinite = true) :
    ∃ s, u.div spec v = .zero s := by
  cases v with
  | zero => cases hv
  | finite => cases hv
  | notANumber => cases u <;> cases h
  | infinity t =>
    cases u with
    | zero s => exact ⟨s / t, rfl⟩
    | finite s => exact ⟨s / t, rfl⟩
    | _ => cases h

end

variable {x y : Float}

/-- What is subtracted from a finite number with a finite result is finite. -/
theorem isFinite_of_sub (hx : x.isFinite = true) (h : (x - y).isFinite = true) :
    y.isFinite = true :=
  right_of_sub (u := x.toModel.unpack) hx (isFinite_of_pack h)

/-- What is divided by a finite number with a finite result is finite. -/
theorem isFinite_of_div (hy : y.isFinite = true) (h : (x / y).isFinite = true) :
    x.isFinite = true :=
  left_of_div (v := y.toModel.unpack) hy (isFinite_of_pack h)

theorem unpack_of_beq_zero (h : (x == 0.0) = true) : ∃ s, x.toModel.unpack = .zero s := by
  have halike : Alike x.toModel.unpack (.zero .positive) := alike_of_compare (beq_iff.1 h)
  generalize x.toModel.unpack = u at halike
  cases halike with
  | refl => exact ⟨_, rfl⟩
  | zeros s => exact ⟨s, rfl⟩

theorem beq_zero_of_unpack {s : Sign} (h : x.toModel.unpack = .zero s) : (x == 0.0) = true := by
  rw [beq_iff, h]
  rfl

/-- Nothing can be divided by zero with a finite result. -/
theorem ne_zero_of_div (h : (x / y).isFinite = true) : (y == 0.0) = false := by
  rw [Bool.eq_false_iff]
  intro hy
  obtain ⟨s, hs⟩ := unpack_of_beq_zero hy
  have hdiv : (x.toModel.unpack.div Format.binary64 y.toModel.unpack).isFinite = true :=
    isFinite_of_pack h
  rw [hs, div_zero_not_isFinite] at hdiv
  cases hdiv

/-- A finite quotient by a number that is not finite is zero. -/
theorem div_beq_zero (hy : y.isFinite = false) (h : (x / y).isFinite = true) :
    (x / y == 0.0) = true := by
  obtain ⟨s, hs⟩ := zero_of_div (v := y.toModel.unpack) hy (isFinite_of_pack h)
  refine beq_zero_of_unpack (s := s) ?_
  change (Float.Model.pack (x.toModel.unpack.div Format.binary64 y.toModel.unpack)).unpack = _
  rw [hs, unpack_pack_zero]

/-! ## Signs -/

/-- A number with the sign, which may be infinite or a zero. -/
def Signed (s : Sign) : UnpackedFloat → Prop
  | .notANumber => False
  | .infinity t => t = s
  | .zero t => t = s
  | .finite t _ _ _ => t = s

theorem signed_unpack {w : Word} (h : unpackExponent w ≠ -1#_) :
    Signed (Sign.ofBitVec (unpackSign w)) (UnpackedFloat.unpack Format.binary64 w) := by
  simp only [UnpackedFloat.unpack, if_neg h]
  split
  next => split <;> rfl
  next => rfl

/-- Packing keeps the sign. -/
theorem signed_pack {s : Sign} {u : UnpackedFloat} (h : Signed s u) :
    Signed s (Float.Model.pack u).unpack := by
  cases u with
  | notANumber => exact h.elim
  | infinity t => cases h; cases s <;> rfl
  | zero t => cases h; cases s <;> rfl
  | finite t m e hm =>
    cases h
    have hwords (f : BitVec 11) (n : BitVec 52) (hf : f ≠ -1#_) :
        Signed s (UnpackedFloat.unpack Format.binary64 (packComponents Format.binary64 s f n)) := by
      have hsigned := signed_unpack (w := packComponents Format.binary64 s f n)
        (by rwa [unpackExponent_packComponents])
      rwa [unpackSign_packComponents, Sign.ofBitVec_toBitVec] at hsigned
    simp only [Float.Model.pack, UnpackedFloat.pack, toNat_bias, Float.Model.unpack]
    split
    next => cases s <;> rfl
    next hexponent =>
      split
      next =>
        refine hwords _ _ fun hall => hexponent ?_
        have := congrArg BitVec.toNat hall
        change biased e % 2048 = 2047 at this
        change 2048 ≤ biased e + 1
        omega
      next => exact hwords _ _ (by decide)

/-- Rounding keeps the sign. -/
theorem signed_round (s : Sign) (m : Nat) (e : Int) (acc : Accuracy) :
    Signed s (roundWithAccuracy Format.binary64 s m e acc) := by
  simp only [roundWithAccuracy]
  split <;> rfl

theorem unpack_of_pos (h : 0.0 < x) :
    x.toModel.unpack = .infinity .positive ∨
      ∃ m e hm, x.toModel.unpack = .finite .positive m e hm := by
  have hcompare := lt_iff.1 h
  change (zero .positive).compare x.toModel.unpack = some .lt at hcompare
  cases hu : x.toModel.unpack with
  | notANumber => rw [hu] at hcompare; cases hcompare
  | zero s => rw [hu] at hcompare; cases hcompare
  | infinity s =>
    rw [hu] at hcompare
    cases s with
    | positive => exact .inl rfl
    | negative => cases hcompare
  | finite s m e hm =>
    rw [hu] at hcompare
    cases s with
    | positive => exact .inr ⟨m, e, hm, rfl⟩
    | negative => cases hcompare

/-- A product of positive numbers is positive, unless it is too large or too small. -/
theorem mul_pos (hx : 0.0 < x) (hy : 0.0 < y) (hfinite : (x * y).isFinite = true)
    (hzero : (x * y == 0.0) = false) : 0.0 < x * y := by
  have hsigned : Signed .positive (x * y).toModel.unpack := by
    refine signed_pack ?_
    obtain hu | ⟨m, e, hm, hu⟩ := unpack_of_pos hx <;>
      obtain hv | ⟨n, f, hn, hv⟩ := unpack_of_pos hy <;> rw [hu, hv]
    · rfl
    · rfl
    · rfl
    · exact signed_round ..
  rw [lt_iff]
  change (zero .positive).compare (x * y).toModel.unpack = some .lt
  change (x * y).toModel.unpack.isFinite = true at hfinite
  cases hu : (x * y).toModel.unpack with
  | notANumber => rw [hu] at hfinite; cases hfinite
  | infinity => rw [hu] at hfinite; cases hfinite
  | zero =>
    rw [beq_zero_of_unpack hu] at hzero
    cases hzero
  | finite s =>
    rw [hu] at hsigned
    cases hsigned
    rfl

/-! ## Exact products -/

/-- The shape of the mantissa and exponent of a double: as many bits as fit, or the least
    exponent. -/
def Canonical (m : Nat) (e : Int) : Prop :=
  m < 2 ^ 53 ∧ -1074 ≤ e ∧ (2 ^ 52 ≤ m ∨ e = -1074)

theorem canonical_unpack {w : Word} {s : Sign} {m : Nat} {e : Int} {hm : 0 < m}
    (h : UnpackedFloat.unpack Format.binary64 w = .finite s m e hm) : Canonical m e := by
  have hmantissa : (@unpackMantissa Format.binary64 w).toNat < 2 ^ 52 := BitVec.isLt _
  simp only [UnpackedFloat.unpack] at h
  split at h
  next => split at h <;> cases h
  next =>
    split at h
    next he =>
      split at h
      next => cases h
      next =>
        cases h
        rw [he]
        exact ⟨by omega, by simp [Format.exponentBias], .inr (by simp [Format.exponentBias])⟩
    next he =>
      cases h
      have hpos : 0 < (@unpackExponent Format.binary64 w).toNat := by
        rw [Nat.pos_iff_ne_zero]
        intro h0
        exact he (BitVec.eq_of_toNat_eq h0)
      rw [implicit_toNat]
      refine ⟨by omega, ?_, .inl (by omega)⟩
      simp only [Format.exponentBias]
      omega

/-- Shifting away zeros loses nothing. -/
theorem shiftRight_exact (m k : Nat) :
    (⟨m * 2 ^ k, false, false⟩ : ExtendedMantissa) >>> k = ⟨m, false, false⟩ := by
  change k.repeat ExtendedMantissa.shiftRightOne _ = _
  induction k generalizing m with
  | zero => simp [Nat.repeat]
  | succ k ih =>
    rw [Nat.repeat, Nat.pow_succ', ← Nat.mul_assoc, ih]
    simp [ExtendedMantissa.shiftRightOne]

theorem log2_mul_two_pow {m : Nat} (hm : 0 < m) (k : Nat) : (m * 2 ^ k).log2 = m.log2 + k := by
  rw [Nat.log2_eq_iff (by positivity)]
  constructor
  · rw [Nat.pow_add]
    exact Nat.mul_le_mul_right _ (Nat.log2_self_le hm.ne')
  · rw [Nat.add_right_comm, Nat.pow_add]
    exact Nat.mul_lt_mul_of_pos_right Nat.lt_log2_self (Nat.two_pow_pos k)

theorem shift_exact {m : Nat} {e : Int} (hm : 0 < m) (h : Canonical m e) (k : Nat) :
    shiftToTargetExponent Format.binary64 (m * 2 ^ k) (e - k) .exact = (⟨m, false, false⟩, e) := by
  obtain ⟨hbits, hleast, hfull⟩ := h
  have hlog : m.log2 ≤ 52 := log2_le_of_lt hbits
  have htarget : max (((m * 2 ^ k).log2 : Int) + 1 + (e - k) - 53) (-1074) = e := by
    rw [log2_mul_two_pow hm]
    rcases hfull with hfull | rfl
    · have : 52 ≤ m.log2 := (Nat.le_log2 hm.ne').2 hfull
      omega
    · omega
  have hshift : (e - (e - k)).toNat = k := by omega
  simp only [shiftToTargetExponent, shiftToExponent, target_eq, htarget, hshift,
    ExtendedMantissa.ofMantissaAndAccuracy, shiftRight_exact]
  exact Prod.ext rfl (by omega)

/-- A double with some zeros appended is rounded to itself. -/
theorem round_exact {s : Sign} {m : Nat} {e : Int} (hm : 0 < m) (h : Canonical m e) (k : Nat) :
    roundWithAccuracy Format.binary64 s (m * 2 ^ k) (e - k) .exact = .finite s m e hm := by
  have hagain := shift_exact hm h 0
  simp only [Nat.pow_zero, Nat.mul_one, Int.ofNat_zero, Int.sub_zero] at hagain
  have hrounded : (⟨m, false, false⟩ : ExtendedMantissa).roundedMantissa = m := rfl
  simp only [roundWithAccuracy, shift_exact hm h k, hrounded]
  simp [hagain, hm.ne']

theorem ofModel_pack_unpack (x : Float) : Float.ofModel (.pack x.toModel.unpack) = x := by
  have hbits : UnpackedFloat.pack Format.binary64 x.toModel.unpack = x.toModel.toBits.toBitVec :=
    pack_unpack_of_valid x.toModel.valid
  exact Float.toBits_inj.1 (UInt64.toBitVec_inj.1 hbits)

/-- Multiplication by one is exact. -/
theorem mul_one (x : Float) : x * 1.0 = x := by
  have hone : (1.0 : Float).toModel.unpack = .finite .positive (2 ^ 52) (-52) (by decide) := rfl
  have hsign (s : Sign) : s * .positive = s := by cases s <;> rfl
  suffices h : x.toModel.unpack.mul Format.binary64 (1.0 : Float).toModel.unpack
      = x.toModel.unpack by
    change Float.ofModel (.pack (x.toModel.unpack.mul Format.binary64 _)) = x
    rw [h, ofModel_pack_unpack]
  rw [hone]
  cases hu : x.toModel.unpack with
  | notANumber => rfl
  | infinity s => exact congrArg infinity (hsign s)
  | zero s => exact congrArg zero (hsign s)
  | finite s m e hm =>
    rw [UnpackedFloat.mul, hsign]
    exact round_exact hm (canonical_unpack hu) 52

theorem eq_of_beq_one (h : (x == 1.0) = true) : x = 1.0 := by
  obtain ⟨-, -, h | ⟨-, h⟩ | ⟨-, h⟩⟩ := Float.beq_iff_ne_nan_and_eq.1 h
  · exact h
  · exact absurd (congrArg Float.toBits h) (by decide)
  · exact absurd (congrArg Float.toBits h) (by decide)

theorem mul_zero_of_isFinite {u : UnpackedFloat} (hu : u.isFinite = true) (s : Sign) :
    ∃ t, u.mul Format.binary64 (.zero s) = .zero t := by
  cases u with
  | zero t => exact ⟨_, rfl⟩
  | finite t => exact ⟨_, rfl⟩
  | _ => cases hu

/-- A multiple of zero adds nothing that is not finite. -/
theorem isFinite_mul_zero_add (hx : x.isFinite = true) (hy : y.isFinite = true) :
    (x * 0.0 + y).isFinite = true := by
  have hmul : ∃ s, (x * 0.0).toModel.unpack = .zero s := by
    obtain ⟨s, hs⟩ := mul_zero_of_isFinite (u := x.toModel.unpack) hx .positive
    exact ⟨s, (congrArg (fun u => (Float.Model.pack u).unpack) hs).trans (unpack_pack_zero s)⟩
  obtain ⟨s, hs⟩ := hmul
  change (Float.Model.pack ((x * 0.0).toModel.unpack.add Format.binary64
    y.toModel.unpack)).unpack.isFinite = true
  change y.toModel.unpack.isFinite = true at hy
  rw [hs]
  cases hv : y.toModel.unpack with
  | zero t =>
    rw [UnpackedFloat.add]
    split <;> exact (within_pack_zero 0 _).isFinite
  | finite t m e hm =>
    have hsum : (zero s).add Format.binary64 (finite t m e hm) = y.toModel.unpack := hv.symm
    rw [hsum]
    exact (congrArg Float.isFinite (ofModel_pack_unpack y)).trans hy
  | _ =>
    rw [hv] at hy
    cases hy

end CourseCharts.Double

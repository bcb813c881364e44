/-
  CourseCharts — the magnitude of doubles.

  A sum or a product of doubles of ordinary size is finite, since there is room
  for many bits more.

  * `Below b` bounds a double by its exponent; `Below.add` and the like: each
    operation needs a few bits more;
  * `Below.of_le`: a double between two bounds has their exponents;
  * `not_isFinite_add`: what is added to a number that is not finite does not
    help.
-/
import CourseCharts.Proofs.Number.Overflow

namespace CourseCharts.Double

open Float.Model Float.Model.UnpackedFloat

/-! ## Sums -/

theorem Within.mono {b c : Int} {u : UnpackedFloat} (h : Within b u) (hbc : b ≤ c) :
    Within c u := by
  cases u with
  | zero => trivial
  | finite s m e hm => exact ⟨h.1, h.2.trans hbc⟩
  | _ => exact h.elim

/-- A number that is normalized is rounded to a finite double, if it is not too large. -/
theorem within_normalize {a : Int} {e b : Int} (s : Sign) (he : e < b)
    (ha : a.natAbs.log2 + e < b + 52) (hl : -1074 < b) (hu : b ≤ 971) :
    Within b (Float.Model.pack (UnpackedFloat.normalize Format.binary64 a e s)).unpack := by
  have hround (s : Sign) (m : Nat) (hm : m = a.natAbs) :
      Within b (Float.Model.pack (UnpackedFloat.round Format.binary64 s m e)).unpack := by
    simp only [UnpackedFloat.round, decreaseExponent, target_eq]
    generalize (e - max ((m.log2 : Int) + 1 + e - 53) (-1074)).toNat = k
    have := log2_shiftLeft_le m k
    subst hm
    exact within_pack_round _ _ (by omega) (by omega) hl hu
  simp only [UnpackedFloat.normalize]
  split
  next h =>
    have := Int.compare_eq_lt.1 h
    exact hround _ _ (by omega)
  next => exact within_pack_zero _ _
  next h =>
    have := Int.compare_eq_gt.1 h
    exact hround _ _ (by omega)

theorem natAbs_apply (s : Sign) (m : Nat) : (s.apply (m : Int)).natAbs = m := by
  cases s <;> simp [Sign.apply]

/-- A mantissa shifted to a smaller exponent. -/
theorem shifted_lt {m : Nat} {e b : Int} (hm : m < 2 ^ 53) (he : e ≤ b) (g : Int) :
    m <<< (e - g).toNat < 2 ^ (53 + (b - g).toNat) := by
  have hshift : (e - g).toNat ≤ (b - g).toNat := by omega
  rw [Nat.shiftLeft_eq]
  calc m * 2 ^ (e - g).toNat < 2 ^ 53 * 2 ^ (e - g).toNat :=
        Nat.mul_lt_mul_of_pos_right hm (Nat.two_pow_pos _)
    _ ≤ 2 ^ 53 * 2 ^ (b - g).toNat :=
        Nat.mul_le_mul_left _ (Nat.pow_le_pow_right (by decide) hshift)
    _ = 2 ^ (53 + (b - g).toNat) := (Nat.pow_add ..).symm

/-- A sum of two shifted mantissas, with any signs. -/
theorem within_sum {m n : Nat} {e f b a : Int} (hm : m < 2 ^ 53) (he : e ≤ b) (hn : n < 2 ^ 53)
    (hf : f ≤ b)
    (ha : a.natAbs ≤ m <<< (e - min e f).toNat + n <<< (f - min e f).toNat)
    (hl : -1074 < b + 2) (hu : b + 2 ≤ 971) (s : Sign) :
    Within (b + 2) (Float.Model.pack
      (UnpackedFloat.normalize Format.binary64 a (min e f) s)).unpack := by
  have hm' := shifted_lt hm he (min e f)
  have hn' := shifted_lt hn hf (min e f)
  have hlog : a.natAbs.log2 ≤ 53 + (b - min e f).toNat := by
    apply log2_le_of_lt
    rw [Nat.pow_succ]
    omega
  exact within_normalize s (by omega) (by omega) hl hu

section
variable {u v : UnpackedFloat} {b : Int}

theorem within_add (hu : Within b u) (hv : Within b v) (hl : -1074 ≤ b) (hb : b + 2 ≤ 971) :
    Within (b + 2) (Float.Model.pack (u.add Format.binary64 v)).unpack := by
  cases u with
  | notANumber => exact hu.elim
  | infinity => exact hu.elim
  | zero s =>
    cases v with
    | notANumber => exact hv.elim
    | infinity => exact hv.elim
    | zero t =>
      simp only [UnpackedFloat.add]
      split <;> exact within_pack_zero _ _
    | finite t n f hn => exact within_pack t hn (hv.2.trans (by omega)) (by omega) hb
  | finite s m e hm =>
    cases v with
    | notANumber => exact hv.elim
    | infinity => exact hv.elim
    | zero t => exact within_pack s hm (hu.2.trans (by omega)) (by omega) hb
    | finite t n f hn =>
      refine within_sum hu.1 hu.2 hv.1 hv.2 ?_ (by omega) hb .positive
      refine (Int.natAbs_add_le _ _).trans ?_
      rw [natAbs_apply, natAbs_apply]

theorem within_sub (hu : Within b u) (hv : Within b v) (hl : -1074 ≤ b) (hb : b + 2 ≤ 971) :
    Within (b + 2) (Float.Model.pack (u.sub Format.binary64 v)).unpack := by
  cases u with
  | notANumber => exact hu.elim
  | infinity => exact hu.elim
  | zero s =>
    cases v with
    | notANumber => exact hv.elim
    | infinity => exact hv.elim
    | zero t =>
      simp only [UnpackedFloat.sub]
      split <;> exact within_pack_zero _ _
    | finite t n f hn => exact within_pack (-t) hn (hv.2.trans (by omega)) (by omega) hb
  | finite s m e hm =>
    cases v with
    | notANumber => exact hv.elim
    | infinity => exact hv.elim
    | zero t => exact within_pack s hm (hu.2.trans (by omega)) (by omega) hb
    | finite t n f hn =>
      refine within_sum hu.1 hu.2 hv.1 hv.2 ?_ (by omega) hb .positive
      refine (Int.natAbs_sub_le _ _).trans ?_
      rw [natAbs_apply, natAbs_apply]

end

/-! ## Doubles of a magnitude -/

/-- A finite double below `2^53 · 2^b`. -/
def Below (b : Int) (x : Float) : Prop := Within b x.toModel.unpack

instance (b : Int) (u : UnpackedFloat) : Decidable (Within b u) := by
  unfold Within
  cases u <;> infer_instance

instance (b : Int) (x : Float) : Decidable (Below b x) :=
  inferInstanceAs (Decidable (Within b x.toModel.unpack))

theorem add_not_isFinite {u v : UnpackedFloat} (hv : v.isFinite = false) :
    (u.add Format.binary64 v).isFinite = false := by
  cases v with
  | zero => cases hv
  | finite => cases hv
  | notANumber => cases u <;> rfl
  | infinity t =>
    cases u with
    | infinity s =>
      rw [UnpackedFloat.add]
      split <;> rfl
    | _ => rfl

/-- A sum with a number that is not finite is not finite. -/
theorem not_isFinite_add {x y : Float} (hy : y.isFinite = false) : (x + y).isFinite = false := by
  rw [Bool.eq_false_iff]
  intro h
  have hadd : (x.toModel.unpack.add Format.binary64 y.toModel.unpack).isFinite = true :=
    isFinite_of_pack h
  rw [add_not_isFinite hy] at hadd
  cases hadd

theorem right_of_mul {u v : UnpackedFloat} (h : (u.mul Format.binary64 v).isFinite = true) :
    v.isFinite = true := by
  cases v with
  | zero => rfl
  | finite => rfl
  | notANumber => cases u <;> cases h
  | infinity => cases u <;> cases h

/-- The factors of a finite product are finite. -/
theorem isFinite_of_mul {x y : Float} (h : (x * y).isFinite = true) : y.isFinite = true :=
  right_of_mul (u := x.toModel.unpack) (v := y.toModel.unpack) (isFinite_of_pack h)

namespace Below

variable {b c : Int} {x y : Float}

theorem isFinite (h : Below b x) : x.isFinite = true := Within.isFinite h

theorem mono (h : Below b x) (hbc : b ≤ c) : Below c x := Within.mono h hbc

theorem add (hx : Below b x) (hy : Below b y) (hb : 0 ≤ b ∧ b ≤ 900) : Below (b + 2) (x + y) :=
  within_add hx hy (by omega) (by omega)

theorem sub (hx : Below b x) (hy : Below b y) (hb : 0 ≤ b ∧ b ≤ 900) : Below (b + 2) (x - y) :=
  within_sub hx hy (by omega) (by omega)

theorem mul (hx : Below b x) (hy : Below c y) (hb : 0 ≤ b + c ∧ b + c ≤ 900) :
    Below (b + c + 54) (x * y) :=
  within_mul hx hy (by omega) (by omega)

/-- Halves are no larger. -/
theorem half (hx : Below b x) (hb : 0 ≤ b ∧ b ≤ 900) : Below b (x / 2.0) := by
  have htwo : (2.0 : Float).toModel.unpack = .finite .positive (2 ^ 52) (-51) (by decide) := rfl
  have hdiv := within_div .positive (by decide : 0 < 2 ^ 52) hx le_rfl (by decide)
    (by omega : -1074 < b - -51 - 51) (by omega)
  have hb' : b - -51 - 51 = b := by omega
  rw [hb'] at hdiv
  change Within b (Float.Model.pack (x.toModel.unpack.div Format.binary64
    (2.0 : Float).toModel.unpack)).unpack
  rwa [htwo]

theorem ofNat {n : Nat} (hn : n < 2 ^ 53) : Below 14 (Float.ofNat n) := within_ofNat hn

/-- The numbers between two bounds are no larger than these. -/
theorem of_le {low high : Float} (hlow : Below b low) (hhigh : Below b high) (hx : low ≤ x)
    (hx' : x ≤ high) : Below b x := by
  rw [le_iff] at hx hx'
  unfold Below at hlow hhigh ⊢
  generalize low.toModel.unpack = l at hlow hx
  generalize high.toModel.unpack = h at hhigh hx'
  cases hu : x.toModel.unpack with
  | zero => trivial
  | notANumber =>
    rw [hu] at hx
    cases l <;> cases hx
  | infinity s =>
    rw [hu] at hx hx'
    cases s with
    | positive =>
      cases h with
      | zero => cases hx'
      | finite => cases hx'
      | _ => exact hhigh.elim
    | negative =>
      cases l with
      | zero => cases hx
      | finite => cases hx
      | _ => exact hlow.elim
  | finite s m e hm =>
    refine ⟨(canonical_unpack hu).1, ?_⟩
    rw [hu] at hx hx'
    have hthen {e f : Int} {o : Ordering} (ho : ((compare e f).then o).isLE = true) : e ≤ f := by
      by_contra hlt
      rw [Int.compare_eq_gt.2 (not_le.1 hlt)] at ho
      cases ho
    cases s with
    | positive =>
      -- a positive number is bounded from above
      cases h with
      | zero => cases hx'
      | finite t n f hn =>
        cases t with
        | positive => exact (hthen hx').trans hhigh.2
        | negative => cases hx'
      | _ => exact hhigh.elim
    | negative =>
      cases l with
      | zero => cases hx
      | finite t n f hn =>
        cases t with
        | positive => cases hx
        | negative =>
          have hswap : ((compare f e).then (compare n m)).swap
              = (compare e f).then (compare m n) := by
            rw [Ordering.swap_then, Int.compare_swap, Nat.compare_swap]
          have hx : ((compare f e).then (compare n m)).swap.isLE = true := hx
          rw [hswap] at hx
          exact (hthen hx).trans hlow.2
      | _ => exact hlow.elim

end Below

end CourseCharts.Double

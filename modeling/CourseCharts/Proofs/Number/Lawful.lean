/-
  CourseCharts — what the charts need of their numbers.

  The rules of exact arithmetic do not hold for doubles, but the charts only
  rely on a few that do.

  * `Scalar.Same` relates equal numbers, and the two zeros;
  * `LawfulScalar` lists the rules, which hold for doubles and for rationals.
-/
import CourseCharts.Proofs.Number.Double

namespace CourseCharts

/-- Equal, or not to be told apart by a comparison. -/
def Scalar.Same {α : Type} [Scalar α] (a b : α) : Prop := a = b ∨ (a == b) = true

open Scalar in
/-- Numbers that follow the rules the charts rely on. -/
class LawfulScalar (α : Type) [Scalar α] : Prop where
  finite_zero : isFinite (0.0 : α) = true
  finite_one : isFinite (1.0 : α) = true
  /-- Counts have 64 bits. -/
  finite_ofNat : ∀ {n : Nat}, n < 2 ^ 64 → isFinite (ofNat n : α) = true
  /-- Stacked bars get a third of the height. -/
  finite_third : ∀ {a : α}, isFinite a = true → isFinite (a / 3.0) = true
  lt_of_not_le : ∀ {a b : α}, isFinite a = true → isFinite b = true → ¬ a ≤ b → b < a
  not_le_of_lt : ∀ {a b : α}, a < b → ¬ b ≤ a
  beq_self : ∀ {a : α}, isFinite a = true → (a == a) = true
  le_of_beq : ∀ {a b : α}, (a == b) = true → a ≤ b
  beq_comm : ∀ {a b : α}, (a == b) = true → (b == a) = true
  beq_trans : ∀ {a b c : α}, (a == b) = true → (b == c) = true → (a == c) = true
  same_add : ∀ {a a' b b' : α}, Same a a' → Same b b' → Same (a + b) (a' + b')
  same_sub : ∀ {a a' b b' : α}, Same a a' → Same b b' → Same (a - b) (a' - b')
  same_mul_left : ∀ {a a' : α} (b : α), Same a a' → Same (a * b) (a' * b)
  same_div_left : ∀ {a a' : α} (b : α), Same a a' → Same (a / b) (a' / b)

namespace Scalar

variable {α : Type} [Scalar α]

theorem le_refl [LawfulScalar α] {a : α} (h : isFinite a = true) : a ≤ a :=
  LawfulScalar.le_of_beq (LawfulScalar.beq_self h)

@[refl] theorem Same.refl (a : α) : Same a a := .inl rfl

theorem Same.symm [LawfulScalar α] {a b : α} (h : Same a b) : Same b a :=
  h.imp Eq.symm LawfulScalar.beq_comm

theorem Same.trans [LawfulScalar α] {a b c : α} (hab : Same a b) (hbc : Same b c) :
    Same a c := by
  rcases hab with rfl | hab
  · exact hbc
  · rcases hbc with rfl | hbc
    · exact .inr hab
    · exact .inr (LawfulScalar.beq_trans hab hbc)

/-- Rationals that compare equal are equal. -/
theorem same_rat {a b : Rat} : Same a b ↔ a = b := by
  constructor
  · rintro (h | h)
    · exact h
    · exact eq_of_beq h
  · exact .inl

end Scalar

instance : LawfulScalar Rat where
  finite_zero := rfl
  finite_one := rfl
  finite_ofNat _ := rfl
  finite_third _ := rfl
  lt_of_not_le _ _ h := not_le.1 h
  not_le_of_lt := not_le_of_gt
  beq_self _ := beq_self_eq_true _
  le_of_beq h := le_of_eq (eq_of_beq h)
  beq_comm h := by rw [eq_of_beq h]; exact beq_self_eq_true _
  beq_trans h h' := by rw [eq_of_beq h]; exact h'
  same_add ha hb := by
    rw [Scalar.same_rat] at ha hb ⊢
    rw [ha, hb]
  same_sub ha hb := by
    rw [Scalar.same_rat] at ha hb ⊢
    rw [ha, hb]
  same_mul_left b ha := by
    rw [Scalar.same_rat] at ha ⊢
    rw [ha]
  same_div_left b ha := by
    rw [Scalar.same_rat] at ha ⊢
    rw [ha]

theorem Double.same_iff {x y : Float} :
    Scalar.Same x y ↔ Double.Alike x.toModel.unpack y.toModel.unpack :=
  Double.alike_iff.symm

instance : LawfulScalar Float where
  finite_zero := rfl
  finite_one := rfl
  finite_ofNat hn := Double.isFinite_ofNat hn
  finite_third ha := Double.isFinite_third ha Double.unpack_three
  lt_of_not_le := Double.lt_of_not_le
  not_le_of_lt := Double.not_le_of_lt
  beq_self h := Float.beq_self_iff.2 (Double.ne_nan_of_isFinite h)
  le_of_beq := Double.le_of_beq
  beq_comm := BEq.symm
  beq_trans := BEq.trans
  same_add ha hb := by
    rw [Double.same_iff] at ha hb ⊢
    exact (ha.add hb).pack
  same_sub ha hb := by
    rw [Double.same_iff] at ha hb ⊢
    exact (ha.sub hb).pack
  same_mul_left b ha := by
    rw [Double.same_iff] at ha ⊢
    exact (ha.mul_left _).pack
  same_div_left b ha := by
    rw [Double.same_iff] at ha ⊢
    exact (ha.div_left _).pack

end CourseCharts

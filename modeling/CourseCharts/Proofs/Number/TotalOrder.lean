/-
  CourseCharts — the total order of doubles.

  * `Double.place` is the place of a double in the order: the infinities around
    the numbers, and NaN above all;
  * `Double.totalLE_iff`: `Scalar.totalLE` is the order of the places;
  * `Double.isFinite_of_between`: so what is between finite doubles is finite.
-/
import CourseCharts.Proofs.Number.Value
import Mathlib.Data.Prod.Lex

namespace CourseCharts.Double

open Float.Model Float.Model.UnpackedFloat
open Scalar (ratOfFloat totalLE)

variable {x y z : Float}

/-! ## Places -/

/-- The class of a double, in order. -/
def rank : UnpackedFloat → Nat
  | .infinity .negative => 0
  | .zero _ | .finite .. => 1
  | .infinity .positive => 2
  | .notANumber => 3

/-- The place of a double: its class, and its number in the class. -/
def place (x : Float) : Nat ×ₗ Rat := toLex (rank x.toModel.unpack, ratOfFloat x)

theorem isFinite_iff_rank : x.isFinite = true ↔ rank x.toModel.unpack = 1 := by
  change x.toModel.unpack.isFinite = true ↔ _
  cases x.toModel.unpack with
  | infinity s => cases s <;> simp [rank, UnpackedFloat.isFinite]
  | _ => simp [rank, UnpackedFloat.isFinite]

theorem isNaN_iff : Scalar.isNaN x = true ↔ x.toModel.unpack = .notANumber := by
  rw [Scalar.isNaN, Bool.not_eq_true', Bool.eq_false_iff, ne_eq, beq_iff, ← beq_iff_eq,
    ← UnpackedFloat.beq, beq_iff_ne_notANumber_and_eq]
  simp

theorem isNaN_of_isFinite (hx : x.isFinite = true) : Scalar.isNaN x = false := by
  rw [Bool.eq_false_iff, ne_eq, isNaN_iff]
  intro hnan
  rw [isFinite_iff_rank, hnan] at hx
  cases hx

/-- Unless both are finite, the classes decide. -/
theorem compare_isLE_iff {u v : UnpackedFloat} (h : ¬ (u.isFinite = true ∧ v.isFinite = true)) :
    (v = .notANumber ∨ (u.compare v).any (·.isLE) = true) ↔
      rank u < rank v ∨ rank u = rank v ∧ value u ≤ value v := by
  cases u with
  | notANumber =>
    cases v with
    | infinity t => cases t <;> simp [rank, UnpackedFloat.compare]
    | _ => simp [rank, UnpackedFloat.compare, value]
  | infinity s =>
    cases v with
    | infinity t => cases s <;> cases t <;> simp [rank, UnpackedFloat.compare, value] <;> decide
    | _ => cases s <;> simp [rank, UnpackedFloat.compare]
  | _ =>
    cases v with
    | infinity t => cases t <;> simp [rank, UnpackedFloat.compare]
    | notANumber => simp [rank]
    | _ => exact absurd ⟨rfl, rfl⟩ h

/-- The total order is that of the places. -/
theorem totalLE_iff : totalLE x y = true ↔ place x ≤ place y := by
  rw [totalLE, Bool.or_eq_true, decide_eq_true_eq, isNaN_iff, place, place,
    Prod.Lex.toLex_le_toLex]
  by_cases h : x.isFinite = true ∧ y.isFinite = true
  · rw [← isNaN_iff, isNaN_of_isFinite h.2, isFinite_iff_rank.1 h.1, isFinite_iff_rank.1 h.2,
      le_iff_rat h.1 h.2]
    simp
  · rw [le_iff, ← value_unpack, ← value_unpack]
    exact compare_isLE_iff h

/-! ## Numbers in the order -/

/-- What is between finite doubles is finite. -/
theorem isFinite_of_between (hx : x.isFinite = true) (hz : z.isFinite = true)
    (hxy : totalLE x y = true) (hyz : totalLE y z = true) : y.isFinite = true := by
  rw [isFinite_iff_rank] at hx hz ⊢
  have hlow : rank x.toModel.unpack ≤ rank y.toModel.unpack :=
    Prod.Lex.monotone_fst _ _ (totalLE_iff.1 hxy)
  have hhigh : rank y.toModel.unpack ≤ rank z.toModel.unpack :=
    Prod.Lex.monotone_fst _ _ (totalLE_iff.1 hyz)
  omega

/-- Below a finite double the total order is that of the numbers. -/
theorem le_of_totalLE (hy : y.isFinite = true) (h : totalLE x y = true) : x ≤ y := by
  rw [totalLE, isNaN_of_isFinite hy, Bool.false_or] at h
  exact of_decide_eq_true h

end CourseCharts.Double

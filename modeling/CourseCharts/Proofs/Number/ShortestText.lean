/-
  CourseCharts — the texts of doubles are decimal numbers.

  * `isDecimal_text`: the text of a double that is finite and not zero is a
    decimal number, with a sign exactly if it is negative;
  * `text_of_not_isFinite`: the texts of what is not finite.
-/
import CourseCharts.Proofs.Number.Numeral
import CourseCharts.Proofs.Number.Shortest

namespace CourseCharts.Double

open Float.Model Float.Model.UnpackedFloat

/-- Digits without an exponent have a fixed number of decimals. -/
theorem exists_positional (d : Digits) :
    ∃ n places, d.positional = Digits.fixed n places ∧ (0 < d.significand → 0 < n) := by
  unfold Digits.positional
  split
  next => exact ⟨_, 0, rfl, fun h => Nat.mul_pos h (Nat.pow_pos (by decide))⟩
  next => exact ⟨_, _, rfl, id⟩

/-- The text of a number that is finite and not zero. -/
theorem isDecimal_text {x : Float} (hx : x.isFinite = true) (hzero : (x == 0.0) = false) :
    ∃ places q, IsDecimal (text x) places q := by
  have hproper := proper_unpack hx
  have hwithin := within_of_isFinite (x := x.toModel) hx
  unfold text
  cases hu : x.toModel.unpack with
  | notANumber => rw [hu] at hproper; exact hproper.elim
  | infinity => rw [hu] at hproper; exact hproper.elim
  | zero s =>
    rw [beq_zero_of_unpack hu] at hzero
    cases hzero
  | finite s m e hm =>
    rw [hu] at hproper hwithin
    have hpos := shortest_pos hm hproper hwithin.2 .larger
    obtain ⟨n, places, hfixed, hn⟩ := exists_positional (shortest .larger m e)
    cases s with
    | positive => exact ⟨places, _, hfixed ▸ isDecimal_unsigned n places⟩
    | negative => exact ⟨places, _, hfixed ▸ isDecimal_fixed true (fun _ => hn hpos) places⟩

/-- The texts of what is not finite. -/
theorem text_of_not_isFinite {x : Float} (hx : x.isFinite = false) :
    (x == 0.0) = false ∧ text x ∈ ["NaN", "inf", "-inf"] := by
  change x.toModel.unpack.isFinite = false at hx
  constructor
  · rw [Bool.eq_false_iff]
    intro hzero
    obtain ⟨s, hs⟩ := unpack_of_beq_zero hzero
    rw [hs] at hx
    cases hx
  · unfold text
    cases hu : x.toModel.unpack with
    | notANumber => simp
    | infinity s => cases s <;> simp
    | zero s => rw [hu] at hx; cases hx
    | finite s m e hm => rw [hu] at hx; cases hx

end CourseCharts.Double

/-
  CourseCharts — the shortest digits of a double.

  A number is read as the double that is nearest to it.

  * `ReadAs` says that a number is read as `m · 2^e`; `readAs_iff`: these numbers
    are those that the window of the double `Holds`;
  * `Window.Chosen` is the number of a grid that is taken from a window;
    `Window.chosen_of_candidate?` and `Window.candidate?_eq_none`: candidates are
    so, and there is one unless the grid misses the window;
  * `IsShortest` are the digits on the coarsest grid, and `IsShortest.unique` says
    that they are unique;
  * `shortest_isShortest`: the search finds them.
-/
import CourseCharts.Number.Shortest
import CourseCharts.Proofs.Number.Spacing

namespace CourseCharts

/-- The number that digits stand for. -/
def Digits.value (d : Digits) : Rat := d.significand * 10 ^ d.exponent

namespace Double

/-! ## Reading -/

/-- The number is read as the double `m · 2^e`: no number with 53 bits is nearer, and if another
    one is as near, `m` is even. -/
def ReadAs (q : Rat) (m : Nat) (e : Int) : Prop :=
  ∀ r, Representable r → r ≠ m * 2 ^ e →
    |m * 2 ^ e - q| < |r - q| ∨ |m * 2 ^ e - q| = |r - q| ∧ m % 2 = 0

section
variable {v r q : Rat}

theorem abs_sub_lt_iff_mul : |v - q| < |r - q| ↔ 0 < (v - r) * (2 * q - (r + v)) := by
  have hsplit : (r - q) ^ 2 - (v - q) ^ 2 = (v - r) * (2 * q - (r + v)) := by ring
  rw [← sq_lt_sq, ← sub_pos, hsplit]

theorem abs_sub_le_iff_mul : |v - q| ≤ |r - q| ↔ 0 ≤ (v - r) * (2 * q - (r + v)) := by
  have hsplit : (r - q) ^ 2 - (v - q) ^ 2 = (v - r) * (2 * q - (r + v)) := by ring
  rw [← sq_le_sq, ← sub_nonneg, hsplit]

/-- What is read as a double lies halfway to its neighbours, or nearer. -/
theorem readAs_iff_of_neighbors {m : Nat} {e : Int} {below above : Rat}
    (hbelow : Representable below) (habove : Representable above) (hlow : below < m * 2 ^ e)
    (hhigh : m * 2 ^ e < above)
    (hgap : ∀ r, Representable r → r ≠ m * 2 ^ e → r ≤ below ∨ above ≤ r) :
    ReadAs q m e ↔
      if m % 2 = 0 then below + m * 2 ^ e ≤ 2 * q ∧ 2 * q ≤ m * 2 ^ e + above
      else below + m * 2 ^ e < 2 * q ∧ 2 * q < m * 2 ^ e + above := by
  unfold ReadAs
  generalize (m : Rat) * 2 ^ e = v at *
  constructor
  · intro h
    have hleft := h below hbelow hlow.ne
    have hright := h above habove hhigh.ne'
    split
    next =>
      have hleft' := abs_sub_le_iff_mul.1 (hleft.elim (·.le) (·.1.le))
      have hright' := abs_sub_le_iff_mul.1 (hright.elim (·.le) (·.1.le))
      rw [mul_nonneg_iff_of_pos_left (sub_pos.2 hlow)] at hleft'
      rw [← neg_mul_neg, mul_nonneg_iff_of_pos_left (by linarith)] at hright'
      constructor <;> linarith
    next hodd =>
      have hleft' := abs_sub_lt_iff_mul.1 (hleft.resolve_right fun h => hodd h.2)
      have hright' := abs_sub_lt_iff_mul.1 (hright.resolve_right fun h => hodd h.2)
      rw [mul_pos_iff_of_pos_left (sub_pos.2 hlow)] at hleft'
      rw [← neg_mul_neg, mul_pos_iff_of_pos_left (by linarith)] at hright'
      constructor <;> linarith
  · intro h r hr hne
    have hside := hgap r hr hne
    split at h
    next heven =>
      obtain ⟨hleft, hright⟩ := h
      have hle : |v - q| ≤ |r - q| := by
        rw [abs_sub_le_iff_mul]
        rcases hside with hr | hr
        · exact mul_nonneg (by linarith) (by linarith)
        · exact mul_nonneg_of_nonpos_of_nonpos (by linarith) (by linarith)
      exact hle.lt_or_eq.imp id fun heq => ⟨heq, heven⟩
    next =>
      obtain ⟨hleft, hright⟩ := h
      refine .inl ?_
      rw [abs_sub_lt_iff_mul]
      rcases hside with hr | hr
      · exact (mul_pos_iff_of_pos_left (by linarith)).2 (by linarith)
      · exact mul_pos_of_neg_of_neg (by linarith) (by linarith)

end

/-! ## Neighbours -/

/-- All numbers are multiples of the least one. -/
theorem Representable.multiple_least {r : Rat} (h : Representable r) :
    ∃ j : Int, r = j * 2 ^ (-1074 : Int) := by
  obtain ⟨n, f, -, hf, rfl⟩ := h
  exact ⟨n * 2 ^ (f - -1074).toNat,
    by rw [two_zpow_eq hf, Int.cast_mul, Int.cast_pow, Int.cast_ofNat, mul_assoc]⟩

/-- From `2^52` units on, all numbers are multiples of the unit; they are so from zero on if the
    unit is the least one. -/
theorem Representable.multiple_of_le {n : Nat} {g : Int} {r : Rat} (hr : Representable r)
    (hn : 2 ^ 52 ≤ n ∨ g = -1074) (hle : n * 2 ^ g ≤ r) : ∃ j : Int, r = j * 2 ^ g := by
  rcases hn with hfull | rfl
  · refine hr.multiple (le_trans ?_ (hle.trans (le_abs_self r)))
    have hfull' : (2 : Rat) ^ 52 ≤ n := by exact_mod_cast hfull
    rw [zpow_add₀ two_ne_zero]
    exact mul_le_mul_of_nonneg_right hfull' (by positivity)
  · exact hr.multiple_least

section
variable {n : Nat} {g : Int} {r : Rat} (hr : Representable r)

include hr

/-- So the next number above is one unit away. -/
theorem Representable.above_le (hn : 2 ^ 52 ≤ n ∨ g = -1074) (hlt : n * 2 ^ g < r) :
    (n + 1) * 2 ^ g ≤ r := by
  have hunit : (0 : Rat) < 2 ^ g := by positivity
  obtain ⟨j, rfl⟩ := hr.multiple_of_le hn hlt.le
  have hj : (n : Int) < j := by exact_mod_cast lt_of_mul_lt_mul_right hlt hunit.le
  have hj' : (n : Rat) + 1 ≤ j := by exact_mod_cast hj
  exact mul_le_mul_of_nonneg_right hj' hunit.le

/-- And so is the next number below, but for a power of two. -/
theorem Representable.le_below (hn : 2 ^ 52 < n ∨ g = -1074) (hlt : r < n * 2 ^ g) :
    r ≤ (n - 1) * 2 ^ g := by
  have hunit : (0 : Rat) < 2 ^ g := by positivity
  by_contra hnot
  rw [not_le] at hnot
  obtain ⟨j, rfl⟩ : ∃ j : Int, r = j * 2 ^ g := by
    rcases hn with hn | rfl
    · refine hr.multiple_of_le (n := n - 1) (.inl (Nat.le_sub_one_of_lt hn)) ?_
      rw [Nat.cast_pred (by omega)]
      exact hnot.le
    · exact hr.multiple_least
  have hj : j < n := by exact_mod_cast lt_of_mul_lt_mul_right hlt hunit.le
  have hj' : (n : Int) - 1 < j := by exact_mod_cast lt_of_mul_lt_mul_right hnot hunit.le
  omega

end

/-! ## Windows -/

/-- The number lies in the window. -/
def Window.Holds (w : Window) (q : Rat) : Prop :=
  if w.closed = true then w.low * 2 ^ w.q ≤ q ∧ q ≤ w.high * 2 ^ w.q
  else w.low * 2 ^ w.q < q ∧ q < w.high * 2 ^ w.q

section
variable {m : Nat} {e : Int}

theorem Window.mid_of (m : Nat) (e : Int) :
    ((Window.of m e).mid : Rat) * 2 ^ (Window.of m e).q = m * 2 ^ e := by
  simp only [Window.of]
  rw [zpow_sub₀ two_ne_zero]
  push_cast
  ring

/-- The upper end lies halfway to the next double. -/
theorem Window.above_of (h : Canonical m e) {above : Rat}
    (habove : above = 2 * (Window.of m e).high * 2 ^ (Window.of m e).q - m * 2 ^ e) :
    m * 2 ^ e < above ∧ Representable above ∧
      ∀ r, Representable r → m * 2 ^ e < r → above ≤ r := by
  have hunit : (0 : Rat) < 2 ^ e := by positivity
  obtain rfl : above = (m + 1) * 2 ^ e := by
    rw [habove, Window.of, zpow_sub₀ two_ne_zero]
    push_cast
    ring
  refine ⟨by linarith, ?_, fun r hr => hr.above_le h.2.2⟩
  exact ⟨m + 1, e, by have := h.1; omega, h.2.1, by push_cast; rfl⟩

/-- The lower end lies halfway to the double before. -/
theorem Window.below_of (hm : 0 < m) (h : Canonical m e) {below : Rat}
    (hbelow : below = 2 * (Window.of m e).low * 2 ^ (Window.of m e).q - m * 2 ^ e) :
    below < m * 2 ^ e ∧ Representable below ∧
      ∀ r, Representable r → r < m * 2 ^ e → r ≤ below := by
  by_cases hpower : m = 2 ^ 52 ∧ -1074 < e
  · obtain ⟨rfl, hleast⟩ := hpower
    -- below a power of two, the unit is half as large
    have hhalf : ((2 ^ 52 : Nat) : Rat) * 2 ^ e = (2 ^ 53 : Nat) * 2 ^ (e - 1) := by
      rw [zpow_sub_one₀ two_ne_zero]
      push_cast
      ring
    have hunit : (0 : Rat) < 2 ^ (e - 1) := by positivity
    obtain rfl : below = ((2 ^ 53 : Nat) - 1) * 2 ^ (e - 1) := by
      have hlow : (Window.of (2 ^ 52) e).low = 4 * 2 ^ 52 - 1 := if_pos ⟨rfl, hleast⟩
      rw [hbelow, hhalf, hlow, Window.of]
      have hquarter : (2 : Rat) ^ (e - 1) = 2 * 2 ^ (e - 2) := by
        rw [← zpow_one_add₀ two_ne_zero]
        congr 1
        omega
      rw [hquarter]
      norm_num
      ring
    rw [hhalf]
    refine ⟨by linarith, ?_, fun r hr => hr.le_below (.inl (by norm_num))⟩
    exact ⟨2 ^ 53 - 1, e - 1, by norm_num, by omega, by norm_num⟩
  · have hinner : 2 ^ 52 < m ∨ e = -1074 := by
      have hleast := h.2.1
      have hfull := h.2.2
      omega
    have hunit : (0 : Rat) < 2 ^ e := by positivity
    obtain rfl : below = (m - 1) * 2 ^ e := by
      have hlow : (Window.of m e).low = 4 * m - 2 := if_neg hpower
      rw [hbelow, hlow, Window.of, zpow_sub₀ two_ne_zero, Nat.cast_sub (by omega)]
      push_cast
      ring
    refine ⟨by linarith, ?_, fun r hr => hr.le_below hinner⟩
    exact ⟨m - 1, e, by have := h.1; omega, h.2.1, by push_cast; rfl⟩

/-- What is read as a double makes up its window. -/
theorem readAs_iff (hm : 0 < m) (h : Canonical m e) {q : Rat} :
    ReadAs q m e ↔ (Window.of m e).Holds q := by
  obtain ⟨hlow, hbelow, hle⟩ := Window.below_of hm h rfl
  obtain ⟨hhigh, habove, hge⟩ := Window.above_of h rfl
  have hclosed : (Window.of m e).closed = true ↔ m % 2 = 0 := decide_eq_true_iff
  rw [readAs_iff_of_neighbors hbelow habove hlow hhigh fun r hr hne =>
    hne.lt_or_gt.imp (hle r hr) (hge r hr)]
  simp only [Window.Holds, hclosed, sub_add_cancel, add_sub_cancel, mul_assoc,
    mul_le_mul_iff_of_pos_left (zero_lt_two : (0 : Rat) < 2),
    mul_lt_mul_iff_of_pos_left (zero_lt_two : (0 : Rat) < 2)]

end

/-! ## Candidates -/

namespace Window

variable {tie : Tie} {w : Window} {k : Int} {c : Nat}

theorem zpow_eq_div (a : Nat) (k : Int) :
    (a : Rat) ^ k = a ^ k.toNat / a ^ (-k).toNat := by
  obtain ⟨j, rfl | rfl⟩ := k.eq_nat_or_neg <;> simp

/-- The two units are `2^q` and `10^k` on a common scale. -/
theorem units_eq (w : Window) (k : Int) : ∃ s : Rat, 0 < s ∧
    ((w.units k).1 : Rat) = 2 ^ w.q * s ∧ ((w.units k).2 : Rat) = 10 ^ k * s := by
  have htwo := zpow_eq_div 2 w.q
  have hten := zpow_eq_div 10 k
  rw [Nat.cast_ofNat] at htwo hten
  refine ⟨2 ^ (-w.q).toNat * 10 ^ (-k).toNat, by positivity, ?_, ?_⟩
  · rw [htwo, units]
    push_cast [Nat.pow_eq]
    field_simp
  · rw [hten, units]
    push_cast [Nat.pow_eq]
    field_simp

theorem units_le_iff {a b : Nat} :
    a * (w.units k).1 ≤ b * (w.units k).2 ↔ (a : Rat) * 2 ^ w.q ≤ b * 10 ^ k := by
  obtain ⟨s, hs, htwo, hten⟩ := w.units_eq k
  rw [← Nat.cast_le (α := Rat), Nat.cast_mul, Nat.cast_mul, htwo, hten, ← mul_assoc, ← mul_assoc,
    mul_le_mul_iff_of_pos_right hs]

theorem le_units_iff {a b : Nat} :
    b * (w.units k).2 ≤ a * (w.units k).1 ↔ (b : Rat) * 10 ^ k ≤ a * 2 ^ w.q := by
  obtain ⟨s, hs, htwo, hten⟩ := w.units_eq k
  rw [← Nat.cast_le (α := Rat), Nat.cast_mul, Nat.cast_mul, htwo, hten, ← mul_assoc, ← mul_assoc,
    mul_le_mul_iff_of_pos_right hs]

theorem contains_iff : w.contains c k = true ↔ w.Holds (c * 10 ^ k) := by
  simp only [contains, Holds]
  split
  next => rw [Bool.and_eq_true, decide_eq_true_iff, decide_eq_true_iff, units_le_iff, le_units_iff]
  next =>
    rw [Bool.and_eq_true, decide_eq_true_iff, decide_eq_true_iff, ← not_le, ← not_le, units_le_iff,
      le_units_iff, not_le, not_le]

theorem Holds.of_lt {q : Rat} (hlow : w.low * 2 ^ w.q < q) (hhigh : q < w.high * 2 ^ w.q) :
    w.Holds q := by
  unfold Holds
  split
  next => exact ⟨hlow.le, hhigh.le⟩
  next => exact ⟨hlow, hhigh⟩

theorem Holds.low_le {q : Rat} (h : w.Holds q) : w.low * 2 ^ w.q ≤ q := by
  unfold Holds at h
  split at h
  next => exact h.1
  next => exact h.1.le

theorem Holds.le_high {q : Rat} (h : w.Holds q) : q ≤ w.high * 2 ^ w.q := by
  unfold Holds at h
  split at h
  next => exact h.2
  next => exact h.2.le

/-- What lies between two numbers of a window is in it, too. -/
theorem Holds.convex {p q r : Rat} (hp : w.Holds p) (hr : w.Holds r) (hpq : p ≤ q) (hqr : q ≤ r) :
    w.Holds q := by
  unfold Holds at *
  split at hp
  next hclosed =>
    rw [if_pos hclosed] at hr ⊢
    exact ⟨hp.1.trans hpq, hqr.trans hr.2⟩
  next hopen =>
    rw [if_neg hopen] at hr ⊢
    exact ⟨hp.1.trans_le hpq, hqr.trans_lt hr.2⟩

/-- The number on the grid of `10^k` that is taken: it lies in the window, no other one there is
    nearer to the middle, and if another one is as near, the even one is taken if `tie` says so. -/
structure Chosen (tie : Tie) (w : Window) (k : Int) (c : Nat) : Prop where
  holds : w.Holds (c * 10 ^ k)
  nearest : ∀ n : Nat, w.Holds (n * 10 ^ k) → n ≠ c →
    |(c : Rat) * 10 ^ k - w.mid * 2 ^ w.q| < |(n : Rat) * 10 ^ k - w.mid * 2 ^ w.q| ∨
      |(c : Rat) * 10 ^ k - w.mid * 2 ^ w.q| = |(n : Rat) * 10 ^ k - w.mid * 2 ^ w.q| ∧
        (tie = .even → c % 2 = 0)

/-- The number of units of `10^k` below the middle. -/
def whole (w : Window) (k : Int) : Nat := w.mid * (w.units k).1 / (w.units k).2

theorem whole_le (w : Window) (k : Int) : (w.whole k : Rat) * 10 ^ k ≤ w.mid * 2 ^ w.q :=
  le_units_iff.1 (Nat.div_mul_le_self _ _)

theorem units_pos (w : Window) (k : Int) : 0 < (w.units k).1 ∧ 0 < (w.units k).2 :=
  ⟨Nat.mul_pos (Nat.two_pow_pos _) (Nat.pow_pos (by decide)),
    Nat.mul_pos (Nat.two_pow_pos _) (Nat.pow_pos (by decide))⟩

theorem lt_whole (w : Window) (k : Int) :
    (w.mid : Rat) * 2 ^ w.q < (w.whole k + 1 : Nat) * 10 ^ k := by
  rw [← not_le, ← le_units_iff, not_le, mul_comm (w.whole k + 1)]
  exact Nat.lt_mul_div_succ _ (w.units_pos k).2

section
variable (w k) {n : Nat}

theorem abs_sub_of_le (hn : n ≤ w.whole k) :
    |(n : Rat) * 10 ^ k - w.mid * 2 ^ w.q| = w.mid * 2 ^ w.q - n * 10 ^ k := by
  have hunit : (0 : Rat) < 10 ^ k := by positivity
  have hn' : (n : Rat) * 10 ^ k ≤ w.whole k * 10 ^ k := by gcongr
  rw [abs_sub_comm, abs_of_nonneg (sub_nonneg.2 (hn'.trans (w.whole_le k)))]

theorem abs_sub_of_lt (hn : w.whole k < n) :
    |(n : Rat) * 10 ^ k - w.mid * 2 ^ w.q| = n * 10 ^ k - w.mid * 2 ^ w.q := by
  have hunit : (0 : Rat) < 10 ^ k := by positivity
  have hn' : ((w.whole k + 1 : Nat) : Rat) * 10 ^ k ≤ n * 10 ^ k := by gcongr; exact hn
  rw [abs_of_nonneg (sub_nonneg.2 ((w.lt_whole k).le.trans hn'))]

end

/-- Both numbers around the middle are candidates; others are further away. -/
theorem holds_around (hmid : w.Holds (w.mid * 2 ^ w.q)) {n : Nat} (hn : w.Holds (n * 10 ^ k)) :
    n ≤ w.whole k ∧ w.contains (w.whole k) k = true ∨
      w.whole k + 1 ≤ n ∧ w.contains (w.whole k + 1) k = true := by
  have hunit : (0 : Rat) < 10 ^ k := by positivity
  rcases Nat.lt_or_ge (w.whole k) n with hlt | hle
  · refine .inr ⟨hlt, contains_iff.2 (hmid.convex hn (w.lt_whole k).le ?_)⟩
    gcongr
    exact hlt
  · refine .inl ⟨hle, contains_iff.2 (hn.convex hmid ?_ (w.whole_le k))⟩
    gcongr

/-- If there is no candidate, the grid misses the window. -/
theorem candidate?_eq_none (hmid : w.Holds (w.mid * 2 ^ w.q)) (h : w.candidate? tie k = none)
    (n : Nat) : ¬ w.Holds (n * 10 ^ k) := by
  intro hn
  have hwhole : w.mid * (w.units k).1 / (w.units k).2 = w.whole k := rfl
  simp only [candidate?, hwhole] at h
  split at h
  next =>
    split at h
    next => cases h
    next => split at h <;> cases h
    next => cases h
  next => cases h
  next => cases h
  next hlow hhigh =>
    rcases holds_around hmid hn with ⟨-, hin⟩ | ⟨-, hin⟩
    · cases hlow.symm.trans hin
    · cases hhigh.symm.trans hin

/-- The number below the middle is taken if the one above is further away or not in the window. -/
theorem chosen_whole (hmid : w.Holds (w.mid * 2 ^ w.q)) (hin : w.contains (w.whole k) k = true)
    (h : w.contains (w.whole k + 1) k = true →
      2 * (w.mid * 2 ^ w.q : Rat) ≤ (2 * w.whole k + 1) * 10 ^ k ∧
        (2 * (w.mid * 2 ^ w.q : Rat) = (2 * w.whole k + 1) * 10 ^ k → tie = .even →
          w.whole k % 2 = 0)) :
    w.Chosen tie k (w.whole k) := by
  have hunit : (0 : Rat) < 10 ^ k := by positivity
  refine ⟨contains_iff.1 hin, fun n hn hne => ?_⟩
  rw [abs_sub_of_le w k le_rfl]
  rcases holds_around hmid hn with ⟨hle, -⟩ | ⟨hlt, hin'⟩
  · rw [abs_sub_of_le w k hle]
    have hn' : (n : Rat) * 10 ^ k < w.whole k * 10 ^ k := by
      gcongr
      exact lt_of_le_of_ne hle hne
    exact .inl (by linarith)
  · rw [abs_sub_of_lt w k hlt]
    obtain ⟨hmiddle, heven⟩ := h hin'
    have hn' : ((w.whole k : Rat) + 1) * 10 ^ k ≤ n * 10 ^ k := by
      gcongr
      exact_mod_cast hlt
    rcases hmiddle.lt_or_eq with hnear | htie
    · exact .inl (by linarith)
    · rcases hn'.lt_or_eq with hfar | hsame
      · exact .inl (by linarith)
      · exact .inr ⟨by linarith, heven htie⟩

/-- The number above is taken if the one below is further away or not in the window. -/
theorem chosen_whole_succ (hmid : w.Holds (w.mid * 2 ^ w.q))
    (hin : w.contains (w.whole k + 1) k = true)
    (h : w.contains (w.whole k) k = true →
      (2 * w.whole k + 1) * 10 ^ k ≤ 2 * (w.mid * 2 ^ w.q : Rat) ∧
        (2 * (w.mid * 2 ^ w.q : Rat) = (2 * w.whole k + 1) * 10 ^ k → tie = .even →
          (w.whole k + 1) % 2 = 0)) :
    w.Chosen tie k (w.whole k + 1) := by
  have hunit : (0 : Rat) < 10 ^ k := by positivity
  refine ⟨contains_iff.1 hin, fun n hn hne => ?_⟩
  rw [abs_sub_of_lt w k (Nat.lt_succ_self _)]
  rcases holds_around hmid hn with ⟨hle, hin'⟩ | ⟨hlt, -⟩
  · rw [abs_sub_of_le w k hle]
    obtain ⟨hmiddle, heven⟩ := h hin'
    have hn' : (n : Rat) * 10 ^ k ≤ w.whole k * 10 ^ k := by gcongr
    push_cast
    rcases hmiddle.lt_or_eq with hnear | htie
    · exact .inl (by linarith)
    · rcases hn'.lt_or_eq with hfar | hsame
      · exact .inl (by linarith)
      · exact .inr ⟨by linarith, heven htie.symm⟩
  · rw [abs_sub_of_lt w k hlt]
    have hn' : ((w.whole k + 1 : Nat) : Rat) * 10 ^ k < n * 10 ^ k := by
      gcongr
      exact lt_of_le_of_ne hlt hne.symm
    exact .inl (by linarith)

/-- Where the middle lies between the numbers around it. -/
theorem cmp_middle (w : Window) (k : Int) (c : Nat) :
    compare (2 * (w.mid * (w.units k).1)) ((2 * c + 1) * (w.units k).2) =
      cmp (2 * (w.mid * 2 ^ w.q : Rat)) ((2 * c + 1) * 10 ^ k) := by
  obtain ⟨s, hs, htwo, hten⟩ := w.units_eq k
  have hmid : ((2 * (w.mid * (w.units k).1) : Nat) : Rat) = 2 * (w.mid * 2 ^ w.q) * s := by
    push_cast [htwo]
    ring
  have hodd : (((2 * c + 1) * (w.units k).2 : Nat) : Rat) = (2 * c + 1) * 10 ^ k * s := by
    push_cast [hten]
    ring
  rcases lt_trichotomy (2 * (w.mid * 2 ^ w.q : Rat)) ((2 * c + 1) * 10 ^ k) with h | h | h
  · rw [(cmp_eq_lt_iff _ _).2 h, Nat.compare_eq_lt, ← Nat.cast_lt (α := Rat), hmid, hodd]
    exact mul_lt_mul_of_pos_right h hs
  · rw [(cmp_eq_eq_iff _ _).2 h, Nat.compare_eq_eq, ← Nat.cast_inj (R := Rat), hmid, hodd, h]
  · rw [(cmp_eq_gt_iff _ _).2 h, Nat.compare_eq_gt, ← Nat.cast_lt (α := Rat), hmid, hodd]
    exact mul_lt_mul_of_pos_right h hs

/-- Candidates are taken. -/
theorem chosen_of_candidate? (hmid : w.Holds (w.mid * 2 ^ w.q)) (h : w.candidate? tie k = some c) :
    w.Chosen tie k c := by
  have hwhole : w.mid * (w.units k).1 / (w.units k).2 = w.whole k := rfl
  simp only [candidate?, hwhole, cmp_middle] at h
  split at h
  next hlow hhigh =>
    split at h
    next hcmp =>
      cases h
      rw [cmp_eq_lt_iff] at hcmp
      exact chosen_whole hmid hlow fun _ => ⟨hcmp.le, fun heq => absurd heq hcmp.ne⟩
    next hcmp =>
      rw [cmp_eq_eq_iff] at hcmp
      split at h
      next htakes =>
        cases h
        refine chosen_whole hmid hlow fun _ => ⟨hcmp.le, fun _ _ => ?_⟩
        simp only [Tie.takesLower, Bool.and_eq_true, beq_iff_eq] at htakes
        exact htakes.2
      next htakes =>
        cases h
        refine chosen_whole_succ hmid hhigh fun _ => ⟨hcmp.ge, fun _ heven => ?_⟩
        simp only [Tie.takesLower, heven, Bool.and_eq_true, beq_iff_eq, true_and] at htakes
        omega
    next hcmp =>
      cases h
      rw [cmp_eq_gt_iff] at hcmp
      exact chosen_whole_succ hmid hhigh fun _ => ⟨hcmp.le, fun heq => absurd heq hcmp.ne'⟩
  next _ hhigh =>
    cases h
    exact chosen_whole hmid ‹_› fun hin => absurd (hhigh.symm.trans hin) Bool.false_ne_true
  next hlow _ =>
    cases h
    exact chosen_whole_succ hmid ‹_› fun hin => absurd (hlow.symm.trans hin) Bool.false_ne_true
  next => cases h

/-- The search finds what is taken on the first grid that does not miss the window. -/
theorem search_spec (hmid : w.Holds (w.mid * 2 ^ w.q)) (fuel : Nat)
    (hlast : ∃ n : Nat, w.Holds (n * 10 ^ (k - fuel))) :
    w.Chosen tie (w.search tie (fuel + 1) k).exponent (w.search tie (fuel + 1) k).significand ∧
      ((w.search tie (fuel + 1) k).exponent = k ∨
        ∀ n : Nat, ¬ w.Holds (n * 10 ^ ((w.search tie (fuel + 1) k).exponent + 1))) := by
  induction fuel generalizing k with
  | zero =>
    rw [search]
    split
    next c hc => exact ⟨chosen_of_candidate? hmid hc, .inl rfl⟩
    next hc =>
      obtain ⟨n, hn⟩ := hlast
      rw [Nat.cast_zero, sub_zero] at hn
      exact absurd hn (candidate?_eq_none hmid hc n)
  | succ fuel ih =>
    rw [search]
    split
    next c hc => exact ⟨chosen_of_candidate? hmid hc, .inl rfl⟩
    next hc =>
      have hnext : k - 1 - fuel = k - (fuel + 1 : Nat) := by omega
      obtain ⟨hchosen, hcoarse⟩ := ih (k := k - 1) (hnext ▸ hlast)
      refine ⟨hchosen, .inr (hcoarse.elim (fun heq => ?_) id)⟩
      rw [heq, sub_add_cancel]
      exact candidate?_eq_none hmid hc

end Window

/-! ## The search -/

/-- Powers of ten and of two: `10^3` is about `2^10`, and `10^25` about `2^83`. -/
theorem ten_zpow_le_two_zpow {k l : Int} (h : 0 ≤ k ∧ 10 * k ≤ 3 * l ∨ k ≤ 0 ∧ 83 * k ≤ 25 * l) :
    (10 : Rat) ^ k ≤ 2 ^ l := by
  have hten : (0 : Rat) ≤ 10 ^ k := by positivity
  have htwo : (0 : Rat) ≤ 2 ^ l := by positivity
  rcases h with ⟨hk, hkl⟩ | ⟨hk, hkl⟩
  · refine (pow_le_pow_iff_left₀ hten htwo (by decide : 3 ≠ 0)).1 ?_
    calc ((10 : Rat) ^ k) ^ 3 = (10 ^ 3) ^ k := by rw [← zpow_natCast, zpow_comm, zpow_natCast]
      _ ≤ (2 ^ (10 : Int)) ^ k := zpow_le_zpow_left₀ hk (by norm_num) (by norm_num)
      _ = 2 ^ (10 * k) := (zpow_mul ..).symm
      _ ≤ 2 ^ (3 * l) := zpow_le_zpow_right₀ one_le_two hkl
      _ = (2 ^ l) ^ 3 := by rw [mul_comm, zpow_mul]; rfl
  · obtain ⟨j, rfl⟩ : ∃ j : Nat, k = -j := ⟨(-k).toNat, by omega⟩
    refine (pow_le_pow_iff_left₀ hten htwo (by decide : 25 ≠ 0)).1 ?_
    have hbase : ((2 : Rat) ^ (83 : Int)) ^ j ≤ (10 ^ 25) ^ j := by
      gcongr
      norm_num
    calc ((10 : Rat) ^ (-j : Int)) ^ 25 = ((10 ^ 25) ^ j)⁻¹ := by
          rw [zpow_neg, zpow_natCast, inv_pow, pow_right_comm]
      _ ≤ ((2 ^ (83 : Int)) ^ j)⁻¹ := inv_anti₀ (by positivity) hbase
      _ = 2 ^ (83 * -j : Int) := by rw [zpow_mul, zpow_neg, zpow_natCast]
      _ ≤ 2 ^ (25 * l) := zpow_le_zpow_right₀ one_le_two hkl
      _ = (2 ^ l) ^ 25 := by rw [mul_comm, zpow_mul]; rfl

theorem two_zpow_le_ten_zpow {k l : Int} (h : 0 ≤ k ∧ 25 * l ≤ 83 * k ∨ k ≤ 0 ∧ 3 * l ≤ 10 * k) :
    (2 : Rat) ^ l ≤ 10 ^ k := by
  have hinverse : (10 : Rat) ^ (-k) ≤ 2 ^ (-l) := ten_zpow_le_two_zpow (by omega)
  rw [zpow_neg, zpow_neg] at hinverse
  exact (inv_le_inv₀ (by positivity) (by positivity)).1 hinverse

/-- The digits are the shortest ones that are read as `m · 2^e`: no number on a coarser grid is read
    so, on their grid no other one that is read so is nearer, and if another one is as near, they
    are even. -/
structure IsShortest (m : Nat) (e : Int) (d : Digits) : Prop where
  read : ReadAs d.value m e
  coarsest : ∀ n : Nat, ¬ ReadAs (n * 10 ^ (d.exponent + 1)) m e
  nearest : ∀ n : Nat, ReadAs (n * 10 ^ d.exponent) m e → n ≠ d.significand →
    |d.value - m * 2 ^ e| < |(n : Rat) * 10 ^ d.exponent - m * 2 ^ e| ∨
      |d.value - m * 2 ^ e| = |(n : Rat) * 10 ^ d.exponent - m * 2 ^ e| ∧ d.significand % 2 = 0

section
variable {m : Nat} {e : Int}

theorem readAs_self (m : Nat) (e : Int) : ReadAs (m * 2 ^ e) m e := by
  intro r _ hne
  rw [sub_self, abs_zero]
  exact .inl (abs_pos.2 (sub_ne_zero.2 hne))

namespace IsShortest

variable {d d' : Digits}

theorem exponent_le (h : IsShortest m e d) (h' : IsShortest m e d') :
    d'.exponent ≤ d.exponent := by
  by_contra hlt
  -- a number on a coarser grid is on every finer one
  refine h.coarsest (d'.significand * 10 ^ (d'.exponent - (d.exponent + 1)).toNat) ?_
  have hgrid : ((d'.significand * 10 ^ (d'.exponent - (d.exponent + 1)).toNat : Nat) : Rat) *
      10 ^ (d.exponent + 1) = d'.value := by
    push_cast
    rw [Digits.value, mul_assoc, ← zpow_natCast, ← zpow_add₀ (by norm_num)]
    congr 2
    omega
  rw [hgrid]
  exact h'.read

/-- Two significands on the same grid are equally near, and even. -/
theorem tie {c c' : Nat} {k : Int} (h : IsShortest m e ⟨c, k⟩) (h' : IsShortest m e ⟨c', k⟩)
    (hne : c' ≠ c) :
    |(c : Rat) * 10 ^ k - m * 2 ^ e| = |(c' : Rat) * 10 ^ k - m * 2 ^ e| ∧
      c % 2 = 0 ∧ c' % 2 = 0 := by
  have hleft := h.nearest c' h'.read hne
  have hright := h'.nearest c h.read hne.symm
  simp only [Digits.value] at hleft hright
  rcases hleft with hlt | ⟨heq, hc⟩
  · rcases hright with hlt' | ⟨heq, -⟩
    · exact absurd hlt hlt'.not_gt
    · exact absurd heq hlt.ne'
  · rcases hright with hlt' | ⟨-, hc'⟩
    · exact absurd heq hlt'.ne'
    · exact ⟨heq, hc, hc'⟩

/-- There are no two. -/
theorem unique (h : IsShortest m e d) (h' : IsShortest m e d') : d = d' := by
  have hexponent := le_antisymm (h'.exponent_le h) (h.exponent_le h')
  obtain ⟨c, k⟩ := d
  obtain ⟨c', k'⟩ := d'
  obtain rfl : k = k' := hexponent
  have hunit : (0 : Rat) < 10 ^ k := by positivity
  by_contra hdigits
  have hne : c' ≠ c := fun heq => hdigits (by rw [heq])
  obtain ⟨heq, hc, hc'⟩ := h.tie h' hne
  -- so the double itself is on the grid between them, and nearer than both
  have hmiddle : (((c + c') / 2 : Nat) : Rat) * 10 ^ k = m * 2 ^ e := by
    have hhalf : (((c + c') / 2 : Nat) : Rat) * 2 = c + c' := by
      exact_mod_cast Nat.div_mul_cancel (by omega : 2 ∣ c + c')
    rcases abs_eq_abs.1 heq with hsame | hopposite
    · have hcast : (c : Rat) = c' := mul_right_cancel₀ hunit.ne' (sub_left_injective hsame)
      exact absurd (by exact_mod_cast hcast.symm) hne
    · linear_combination (10 ^ k / 2 : Rat) * hhalf + hopposite / 2
  have hread : ReadAs ((((c + c') / 2 : Nat) : Rat) * 10 ^ k) m e := hmiddle ▸ readAs_self m e
  have hbetween : (c + c') / 2 ≠ c := by omega
  rcases h.nearest _ hread hbetween with hlt | ⟨hzero, -⟩
  · rw [hmiddle, sub_self, abs_zero] at hlt
    exact absurd (abs_nonneg _) hlt.not_ge
  · rw [hmiddle, sub_self, abs_zero] at hzero
    simp only [Digits.value] at hzero
    rw [hzero, eq_comm, abs_eq_zero, sub_eq_zero] at heq
    rw [abs_eq_zero, sub_eq_zero] at hzero
    have hcast : (c' : Rat) = c := mul_right_cancel₀ hunit.ne' (heq.trans hzero.symm)
    exact hne (by exact_mod_cast hcast)

end IsShortest

theorem Window.lt_high_of (m : Nat) (e : Int) : (m : Rat) * 2 ^ e + 2 ^ (e - 2) <
    (Window.of m e).high * 2 ^ (Window.of m e).q := by
  have hunit : (0 : Rat) < 2 ^ (e - 2) := by positivity
  rw [← Window.mid_of]
  simp only [Window.of]
  push_cast
  linarith

section
variable (hm : 0 < m)

include hm

theorem Window.low_of_pos : 0 < (Window.of m e).low := by
  simp only [Window.of]
  split <;> omega

theorem Window.low_of_lt : ((Window.of m e).low : Rat) * 2 ^ (Window.of m e).q < m * 2 ^ e := by
  have hlt : (Window.of m e).low < (Window.of m e).mid := by
    simp only [Window.of]
    split <;> omega
  rw [← Window.mid_of m e]
  exact mul_lt_mul_of_pos_right (by exact_mod_cast hlt) (by positivity)

theorem Window.high_of_le : ((Window.of m e).high : Rat) * 2 ^ (Window.of m e).q ≤
    2 * (m * 2 ^ e) := by
  have hm' : (1 : Rat) ≤ m := by exact_mod_cast hm
  have hunit : (0 : Rat) < 2 ^ (e - 2) := by positivity
  have hle : (2 : Rat) ^ (e - 2) ≤ m * 2 ^ (e - 2) := le_mul_of_one_le_left hunit.le hm'
  rw [← Window.mid_of m e]
  simp only [Window.of]
  push_cast
  linarith

theorem Window.holds_mid :
    (Window.of m e).Holds ((Window.of m e).mid * 2 ^ (Window.of m e).q) := by
  rw [Window.mid_of]
  refine .of_lt (Window.low_of_lt hm) (lt_trans ?_ (Window.lt_high_of m e))
  exact lt_add_of_pos_right _ (by positivity)

variable (h : Canonical m e) (he : e ≤ 971)

include h he

/-- The last grid of the search does not miss the window. -/
theorem exists_last : ∃ n : Nat, (Window.of m e).Holds
    (n * 10 ^ ((m.log2 + e + 1) * 30103 / 100000 + 2 - (20 : Nat) : Int)) := by
  have hlog : m.log2 ≤ 52 := log2_le_of_lt h.1
  have hleast := h.2.1
  generalize hk : ((m.log2 + e + 1) * 30103 / 100000 + 2 - (20 : Nat) : Int) = k
  have hfine : (10 : Rat) ^ k ≤ 2 ^ (e - 2) := ten_zpow_le_two_zpow (by omega)
  have hwhole := (Window.of m e).whole_le k
  have hnext := (Window.of m e).lt_whole k
  rw [Window.mid_of] at hwhole hnext
  refine ⟨_, .of_lt ((Window.low_of_lt hm).trans hnext) (lt_of_le_of_lt ?_ (Window.lt_high_of m e))⟩
  push_cast
  linarith

/-- The grid above the first one misses it. -/
theorem first_grid (n : Nat) : ¬ (Window.of m e).Holds
    (n * 10 ^ ((m.log2 + e + 1) * 30103 / 100000 + 2 + 1 : Int)) := by
  intro hn
  have hlog : m.log2 ≤ 52 := log2_le_of_lt h.1
  have hleast := h.2.1
  generalize hk : ((m.log2 + e + 1) * 30103 / 100000 + 2 + 1 : Int) = k at hn
  have hcoarse : (2 : Rat) ^ (m.log2 + 2 + e : Int) ≤ 10 ^ k := two_zpow_le_ten_zpow (by omega)
  rcases Nat.eq_zero_or_pos n with rfl | hpos
  · have hlow : (0 : Rat) < (Window.of m e).low * 2 ^ (Window.of m e).q := by
      have := Window.low_of_pos (e := e) hm
      positivity
    rw [Nat.cast_zero, zero_mul] at hn
    exact absurd hn.low_le hlow.not_ge
  · have hn' : (1 : Rat) ≤ n := by exact_mod_cast hpos
    have hm' : (m : Rat) < 2 ^ (m.log2 + 1) := by exact_mod_cast Nat.lt_log2_self
    refine absurd (hn.le_high.trans (Window.high_of_le hm)) (not_le.2 ?_)
    calc 2 * ((m : Rat) * 2 ^ e) < 2 * (2 ^ (m.log2 + 1) * 2 ^ e) := by gcongr
      _ = 2 ^ (m.log2 + 2 + e : Int) := by
          rw [zpow_add₀ two_ne_zero, zpow_add₀ two_ne_zero, zpow_natCast, pow_succ]
          norm_num
          ring
      _ ≤ 10 ^ k := hcoarse
      _ ≤ n * 10 ^ k := le_mul_of_one_le_left (by positivity) hn'

/-- The search finds a number of the window. -/
theorem shortest_holds (tie : Tie) : (Window.of m e).Holds (shortest tie m e).value :=
  (Window.search_spec (Window.holds_mid hm) 20 (exists_last hm h he)).1.holds

/-- The digits of a positive double are not all zero. -/
theorem shortest_pos (tie : Tie) : 0 < (shortest tie m e).significand := by
  rw [Nat.pos_iff_ne_zero]
  intro hzero
  have hlow : (0 : Rat) < (Window.of m e).low * 2 ^ (Window.of m e).q := by
    have := Window.low_of_pos (e := e) hm
    positivity
  have hholds := shortest_holds hm h he tie
  rw [Digits.value, hzero, Nat.cast_zero, zero_mul] at hholds
  exact absurd hholds.low_le hlow.not_ge

/-- The search finds the shortest digits. -/
theorem shortest_isShortest : IsShortest m e (shortest .even m e) := by
  obtain ⟨⟨hholds, hnearest⟩, hcoarse⟩ :=
    @Window.search_spec .even _ _ (Window.holds_mid hm) 20 (exists_last hm h he)
  rw [Window.mid_of] at hnearest
  refine ⟨(readAs_iff hm h).2 hholds, fun n hn => ?_, fun n hn hne => ?_⟩
  · rw [readAs_iff hm h] at hn
    rcases hcoarse with hfirst | hcoarse
    · refine first_grid hm h he n ?_
      rwa [← hfirst]
    · exact hcoarse n hn
  · exact (hnearest n ((readAs_iff hm h).1 hn) hne).imp id fun h => ⟨h.1, h.2 rfl⟩

end

end

end Double

end CourseCharts

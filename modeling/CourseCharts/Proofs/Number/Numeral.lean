/-
  CourseCharts — numbers read back from their texts.

  The texts of numbers are numerals, with the digits of the number and nothing
  around them.

  * `Json.Numeral.ofText?` reads a text that is a numeral, and
    `Json.Numeral.exact` is the number it stands for;
  * `IsDecimal`: the text is a number with so many decimals, and has a sign
    exactly if the number is negative; it is no other number
    (`IsDecimal.unique`), and has no other characters (`IsDecimal.toList_eq`);
  * `isDecimal_fixed`: what is written with a fixed number of decimals is read
    back;
  * `IsDecimal.eq_fixed`: decimal numbers are written so, and hence in one way
    only (`IsDecimal.text_unique`).
-/
import CourseCharts.Json.Number
import Mathlib.Algebra.Order.Field.Rat
import Mathlib.Data.List.TakeWhile
import Mathlib.Tactic.FieldSimp
import Mathlib.Tactic.Linarith
import Mathlib.Tactic.Positivity
import Mathlib.Tactic.Ring

namespace CourseCharts

namespace Json

/-- The numeral that a text consists of. -/
def Numeral.ofText? (s : String) : Option Numeral :=
  match Numeral.scan? s.toList with
  | some (n, []) => some n
  | _ => none

/-- The number that a numeral stands for. -/
def Numeral.exact (n : Numeral) : Rat :=
  let fraction := n.fraction.getD []
  (if n.negative then -1 else 1) * ofDigits (n.whole ++ fraction) *
    10 ^ (n.exponent.getD 0 - fraction.length)

end Json

open Json (Numeral)

/-- The text is the number, with so many decimals: an optional minus sign, digits and, if there
    are decimals, a point and these.  The minus sign stands exactly before negative numbers. -/
def IsDecimal (s : String) (places : Nat) (x : Rat) : Prop :=
  ∃ n, Numeral.ofText? s = some n ∧ n.exponent = none ∧
    n.fraction.map List.length = (if places = 0 then none else some places) ∧ n.exact = x ∧
    (n.negative = true ↔ x < 0)

/-- A text stands for one number only. -/
theorem IsDecimal.unique {s : String} {p q : Nat} {x y : Rat} (hx : IsDecimal s p x)
    (hy : IsDecimal s q y) : x = y := by
  obtain ⟨n, hn, -, -, rfl, -⟩ := hx
  obtain ⟨m, hm, -, -, rfl, -⟩ := hy
  rw [Option.some.inj (hn.symm.trans hm)]

/-! ## Digits -/

namespace Json

/-- The value of a digit. -/
def digit (c : Char) : Nat := c.toNat - '0'.toNat

theorem digit_lt {c : Char} (h : c.isDigit = true) : digit c < 10 := by
  obtain ⟨-, hle⟩ := Char.isDigit_iff_toNat.1 h
  change c.toNat - 48 < 10
  change c.toNat ≤ 57 at hle
  omega

theorem digitChar_digit {c : Char} (h : c.isDigit = true) : (digit c).digitChar = c := by
  obtain ⟨hge, -⟩ := Char.isDigit_iff_toNat.1 h
  rw [← Char.toNat_inj, Nat.toNat_digitChar_of_lt_ten (digit_lt h)]
  exact Nat.add_sub_cancel' hge

theorem ofDigits_map (cs : List Char) : ofDigits (cs.map digit) = Nat.ofDigitChars 10 cs 0 := by
  rw [ofDigits, List.foldl_map, Nat.ofDigitChars_eq_foldl]
  rfl

theorem ofDigitChars_concat (cs : List Char) (c : Char) :
    Nat.ofDigitChars 10 (cs ++ [c]) 0 = 10 * Nat.ofDigitChars 10 cs 0 + digit c := by
  rw [Nat.ofDigitChars_append, Nat.ofDigitChars_cons, Nat.ofDigitChars_nil]
  rfl

theorem ofDigitChars_lt {cs : List Char} (h : ∀ c ∈ cs, c.isDigit = true) :
    Nat.ofDigitChars 10 cs 0 < 10 ^ cs.length := by
  induction cs using List.reverseRecOn with
  | nil => exact Nat.one_pos
  | append_singleton cs c ih =>
    have hcs := ih fun c hc => h c (List.mem_append_left _ hc)
    have hc := digit_lt (h c (List.mem_append_right _ List.mem_cons_self))
    rw [ofDigitChars_concat, List.length_append, List.length_singleton, Nat.pow_succ]
    omega

/-- As many digits of the same number are the same. -/
theorem eq_of_ofDigitChars_eq {cs ds : List Char} (hcs : ∀ c ∈ cs, c.isDigit = true)
    (hds : ∀ d ∈ ds, d.isDigit = true) (hlength : cs.length = ds.length)
    (h : Nat.ofDigitChars 10 cs 0 = Nat.ofDigitChars 10 ds 0) : cs = ds := by
  induction cs using List.reverseRecOn generalizing ds with
  | nil => exact (List.length_eq_zero_iff.1 hlength.symm).symm
  | append_singleton cs c ih =>
    obtain rfl | ⟨ds, d, rfl⟩ := ds.eq_nil_or_concat'
    · rw [List.length_append, List.length_singleton] at hlength
      cases hlength
    · have hc := hcs c (List.mem_append_right _ List.mem_cons_self)
      have hd := hds d (List.mem_append_right _ List.mem_cons_self)
      have hc' := digit_lt hc
      have hd' := digit_lt hd
      rw [List.length_append, List.length_append, List.length_singleton, List.length_singleton,
        Nat.add_right_cancel_iff] at hlength
      rw [ofDigitChars_concat, ofDigitChars_concat] at h
      have hlast : digit c = digit d := by omega
      rw [ih (fun c hc => hcs c (List.mem_append_left _ hc))
        (fun d hd => hds d (List.mem_append_left _ hd)) hlength (by omega),
        ← digitChar_digit hc, ← digitChar_digit hd, hlast]

/-- Digits without a leading zero are those of their number. -/
theorem toDigits_ofDigitChars {cs : List Char} (hne : cs ≠ [])
    (hzero : ∀ ds, cs = '0' :: ds → ds = []) (hcs : ∀ c ∈ cs, c.isDigit = true) :
    Nat.toDigits 10 (Nat.ofDigitChars 10 cs 0) = cs := by
  induction cs using List.reverseRecOn with
  | nil => exact absurd rfl hne
  | append_singleton cs c ih =>
    have hc := hcs c (List.mem_append_right _ List.mem_cons_self)
    have hc' := digit_lt hc
    rw [ofDigitChars_concat]
    rcases eq_or_ne cs [] with rfl | hcs'
    · rw [Nat.ofDigitChars_nil, Nat.mul_zero, Nat.zero_add, Nat.toDigits_of_lt_base hc',
        digitChar_digit hc]
      rfl
    · have hrest := ih hcs' (fun ds hds => absurd (hzero (ds ++ [c]) (by simp [hds])) (by simp))
        fun c hc => hcs c (List.mem_append_left _ hc)
      have hpos : 0 < Nat.ofDigitChars 10 cs 0 := by
        rw [Nat.pos_iff_ne_zero]
        intro hvalue
        rw [hvalue] at hrest
        exact absurd (hzero [c] (by rw [← hrest]; rfl)) (List.cons_ne_nil _ _)
      have hdiv : (10 * Nat.ofDigitChars 10 cs 0 + digit c) / 10 = Nat.ofDigitChars 10 cs 0 := by
        omega
      have hmod : (10 * Nat.ofDigitChars 10 cs 0 + digit c) % 10 = digit c := by omega
      rw [Nat.toDigits_of_base_le (by decide) (by omega), hdiv, hmod, hrest, digitChar_digit hc]

/-- Digits up to a character that is none. -/
theorem scanDigits_append {ds rest : List Char} (hds : ∀ c ∈ ds, c.isDigit = true)
    (hrest : ∀ c ∈ rest.head?, c.isDigit = false) :
    scanDigits (ds ++ rest) = (ds.map digit, rest) := by
  have htake : rest.takeWhile Char.isDigit = [] := by
    cases rest with
    | nil => rfl
    | cons c rest => rw [List.takeWhile_cons, hrest c rfl]; rfl
  have hdrop : rest.dropWhile Char.isDigit = rest := by
    cases rest with
    | nil => rfl
    | cons c rest => rw [List.dropWhile_cons, hrest c rfl]; rfl
  rw [scanDigits, List.takeWhile_append_of_pos hds, List.dropWhile_append_of_pos hds, htake, hdrop,
    List.append_nil]
  rfl

theorem isDigit_toDigits {n : Nat} {c : Char} (h : c ∈ Nat.toDigits 10 n) : c.isDigit = true :=
  Nat.isDigit_of_mem_toDigits (by decide) (by decide) h

/-- The first digit of a positive number is not zero. -/
theorem head_toDigits {n : Nat} (h : 0 < n) :
    ∃ c cs, Nat.toDigits 10 n = c :: cs ∧ digit c ≠ 0 := by
  induction n using Nat.strongRecOn with
  | _ n ih =>
    rcases Nat.lt_or_ge n 10 with hlt | hge
    · refine ⟨_, _, Nat.toDigits_of_lt_base hlt, ?_⟩
      have := Nat.toNat_digitChar_sub_48_of_lt_ten hlt
      change n.digitChar.toNat - 48 ≠ 0
      omega
    · obtain ⟨c, cs, hcs, hc⟩ := ih (n / 10) (by omega) (by omega)
      refine ⟨c, cs ++ [(n % 10).digitChar], ?_, hc⟩
      rw [Nat.toDigits_of_base_le (by decide) hge, hcs, List.cons_append]

/-- A point with some digits after it, and what follows them. -/
theorem scanFraction?_digits {ds rest : List Char} (hne : ds ≠ [])
    (hds : ∀ c ∈ ds, c.isDigit = true) (hrest : ∀ c ∈ rest.head?, c.isDigit = false) :
    scanFraction? ('.' :: (ds ++ rest)) = some (some (ds.map digit), rest) := by
  have hscan := scanDigits_append hds hrest
  obtain ⟨c, cs, rfl⟩ := List.exists_cons_of_ne_nil hne
  simp only [scanFraction?, hscan, List.map_cons]

/-- A sign before some digits. -/
theorem scanMinus_append {ds : List Char} (hne : ds ≠ []) (hds : ∀ c ∈ ds, c.isDigit = true)
    (negative : Bool) (rest : List Char) :
    scanMinus ((if negative then ['-'] else []) ++ (ds ++ rest)) = (negative, ds ++ rest) := by
  obtain ⟨c, cs, rfl⟩ := List.exists_cons_of_ne_nil hne
  have hc := hds c List.mem_cons_self
  cases negative with
  | true => rfl
  | false =>
    unfold scanMinus
    split
    next hminus =>
      cases hminus
      cases hc
    next => rfl

/-- The digits of a number after a sign, a fraction and an exponent. -/
theorem scan?_toDigits (negative : Bool) (n : Nat) {rest tail : List Char}
    {fraction : Option (List Nat)} {exponent : Option Int}
    (hrest : ∀ c ∈ rest.head?, c.isDigit = false)
    (hfraction : scanFraction? rest = some (fraction, tail))
    (hexponent : scanExponent? tail = some (exponent, [])) :
    Numeral.scan? ((if negative then ['-'] else []) ++ (Nat.toDigits 10 n ++ rest)) =
      some (⟨negative, (Nat.toDigits 10 n).map digit, fraction, exponent⟩, []) := by
  have hdigits : ∀ c ∈ Nat.toDigits 10 n, c.isDigit = true := fun c => isDigit_toDigits
  have hsign := scanMinus_append Nat.toDigits_ne_nil hdigits negative rest
  have hscan := scanDigits_append hdigits hrest
  unfold Numeral.scan?
  simp only [hsign, hscan, hfraction]
  split
  next hnil => exact absurd (List.map_eq_nil_iff.1 hnil) Nat.toDigits_ne_nil
  next hzero =>
    -- only zero itself starts with a zero
    rcases Nat.eq_zero_or_pos n with rfl | hpos
    · cases hzero
    · obtain ⟨c, cs, hcs, hc⟩ := head_toDigits hpos
      rw [hcs, List.map_cons, List.cons.injEq] at hzero
      exact absurd hzero.1 hc
  next => simp only [Option.bind_eq_bind, Option.bind_some, hexponent, Option.pure_def]

/-! ## The characters of a numeral -/

theorem scanMinus_eq (cs : List Char) :
    cs = (if (scanMinus cs).1 then ['-'] else []) ++ (scanMinus cs).2 := by
  unfold scanMinus
  split <;> rfl

theorem scanDigits_eq (cs : List Char) :
    ∃ ds, cs = ds ++ (scanDigits cs).2 ∧ (scanDigits cs).1 = ds.map digit ∧
      ∀ c ∈ ds, c.isDigit = true :=
  ⟨_, (List.takeWhile_append_dropWhile ..).symm, rfl, fun _ => List.mem_takeWhile_imp⟩

theorem scanFraction?_eq {cs rest : List Char} {fraction : Option (List Nat)}
    (h : scanFraction? cs = some (fraction, rest)) :
    ∃ ds, cs = (if ds = [] then [] else '.' :: ds) ++ rest ∧
      fraction = (if ds = [] then none else some (ds.map digit)) ∧ ∀ c ∈ ds, c.isDigit = true := by
  unfold scanFraction? at h
  split at h
  next cs =>
    obtain ⟨ds, hcs, hmap, hdigits⟩ := scanDigits_eq cs
    split at h
    next => cases h
    next hne heq =>
      cases h
      rw [heq] at hcs hmap
      have hds : ds ≠ [] := by
        rintro rfl
        exact hne hmap
      exact ⟨ds, by rw [if_neg hds, List.cons_append, ← hcs], by rw [if_neg hds, ← hmap], hdigits⟩
  next =>
    cases h
    exact ⟨[], rfl, rfl, by simp⟩

theorem scanExponent?_none {cs rest : List Char} (h : scanExponent? cs = some (none, rest)) :
    rest = cs := by
  unfold scanExponent? at h
  split at h
  next c cs =>
    split at h
    next =>
      dsimp only at h
      split at h <;> cases h
    next =>
      cases h
      rfl
  next =>
    cases h
    rfl

/-- What is read as a numeral without an exponent is a sign, digits and a fraction. -/
theorem Numeral.toList_of_ofText? {s : String} {n : Numeral} (h : Numeral.ofText? s = some n)
    (hexponent : n.exponent = none) :
    ∃ whole fraction, s.toList = (if n.negative then ['-'] else []) ++ whole ++
        (if fraction = [] then [] else '.' :: fraction) ∧
      whole ≠ [] ∧ (∀ cs, whole = '0' :: cs → cs = []) ∧
      (∀ c ∈ whole ++ fraction, c.isDigit = true) ∧ n.whole = whole.map digit ∧
      n.fraction = if fraction = [] then none else some (fraction.map digit) := by
  unfold Numeral.ofText? at h
  split at h
  next m hscan =>
    cases h
    obtain ⟨whole, hwhole, hmap, hdigits⟩ := scanDigits_eq (scanMinus s.toList).2
    simp only [Numeral.scan?] at hscan
    split at hscan
    next => cases hscan
    next => cases hscan
    next hne hzero =>
      obtain ⟨⟨fraction, cs⟩, hfraction, hscan⟩ := Option.bind_eq_some_iff.1 hscan
      obtain ⟨⟨exponent, rest⟩, hexp, hscan⟩ := Option.bind_eq_some_iff.1 hscan
      cases hscan
      obtain rfl : exponent = none := hexponent
      obtain rfl := scanExponent?_none hexp
      obtain ⟨ds, hds, rfl, hds'⟩ := scanFraction?_eq hfraction
      rw [List.append_nil] at hds
      rw [hmap] at hne hzero
      refine ⟨whole, ds, ?_, ?_, ?_, ?_, hmap, rfl⟩
      · rw [← hds, List.append_assoc, ← hwhole]
        exact scanMinus_eq _
      · rintro rfl
        exact hne rfl
      · rintro (_ | ⟨c, cs⟩) rfl
        · rfl
        · exact absurd rfl (hzero _ _)
      · simpa [or_imp, forall_and] using ⟨hdigits, hds'⟩
  next => cases h

end Json

/-- A decimal number has a sign if it is negative, digits without a leading zero and as many
    decimals as it says. -/
theorem IsDecimal.toList_eq {s : String} {p : Nat} {x : Rat} (h : IsDecimal s p x) :
    ∃ whole fraction, s.toList = (if x < 0 then ['-'] else []) ++ whole ++
        (if p = 0 then [] else '.' :: fraction) ∧
      whole ≠ [] ∧ (∀ cs, whole = '0' :: cs → cs = []) ∧ fraction.length = p ∧
      (∀ c ∈ whole ++ fraction, c.isDigit = true) ∧
      (Nat.ofDigitChars 10 (whole ++ fraction) 0 : Rat) = |x| * 10 ^ p := by
  obtain ⟨n, hn, hexponent, hlength, hexact, hsign⟩ := h
  obtain ⟨whole, fraction, hlist, hne, hzero, hdigits, hwhole, hfraction⟩ :=
    Json.Numeral.toList_of_ofText? hn hexponent
  simp only [hsign] at hlist
  rw [hfraction] at hlength
  have hnil : fraction = [] ↔ p = 0 := by
    by_cases hp : p = 0 <;> by_cases hf : fraction = [] <;> simp [hp, hf] at hlength ⊢
  have hlength' : fraction.length = p := by
    by_cases hp : p = 0
    · rw [hnil.2 hp, hp]
      rfl
    · simpa [hp, mt hnil.1 hp] using hlength
  have hmap : n.fraction.getD [] = fraction.map Json.digit := by
    rw [hfraction]
    by_cases hf : fraction = [] <;> simp [hf]
  refine ⟨whole, fraction, by simpa only [hnil] using hlist, hne, hzero, hlength', hdigits, ?_⟩
  have hpower : (0 : Rat) < 10 ^ p := by positivity
  have hunsigned : |if n.negative then (-1 : Rat) else 1| = 1 := by split <;> simp
  rw [← hexact, Numeral.exact, hmap, hwhole, ← List.map_append, Json.ofDigits_map, hexponent,
    List.length_map, hlength', Option.getD_none, zero_sub, zpow_neg, zpow_natCast, abs_mul, abs_mul,
    hunsigned, abs_of_pos (inv_pos.2 hpower), one_mul, inv_mul_cancel_right₀ hpower.ne',
    Nat.abs_cast]

/-! ## A fixed number of decimals -/

namespace Digits

variable {m places : Nat}

/-- The decimals of `m / 10^places`. -/
def decimals (m places : Nat) : List Char :=
  let ds := Nat.toDigits 10 (m % 10 ^ places)
  List.replicate (places - ds.length) '0' ++ ds

theorem isDigit_decimals {c : Char} (h : c ∈ decimals m places) : c.isDigit = true := by
  rcases List.mem_append.1 h with h | h
  · rw [List.eq_of_mem_replicate h]
    rfl
  · exact Json.isDigit_toDigits h

theorem length_decimals (h : 0 < places) : (decimals m places).length = places := by
  have hlt : m % 10 ^ places < 10 ^ places := Nat.mod_lt _ (by positivity)
  have hlength := (Nat.length_toDigits_le_iff (by decide) h).2 hlt
  simp only [decimals, List.length_append, List.length_replicate]
  omega

/-- The digits before the point and those after it are the digits of `m`. -/
theorem ofDigitChars_decimals (h : 0 < places) :
    Nat.ofDigitChars 10 (Nat.toDigits 10 (m / 10 ^ places) ++ decimals m places) 0 = m := by
  have hzeros : Nat.ofDigitChars 10 (decimals m places) 0 = m % 10 ^ places := by
    rw [decimals, Nat.ofDigitChars_append, Nat.ofDigitChars_replicate_zero, Nat.mul_zero,
      Nat.ofDigitChars_ten_toDigits]
  rw [Nat.ofDigitChars_append, Nat.ofDigitChars_ten_toDigits,
    Nat.ofDigitChars_eq_ofDigitChars_zero, length_decimals h, hzeros, Nat.div_add_mod]

theorem toList_fixed (h : 0 < places) :
    (fixed m places).toList = Nat.toDigits 10 (m / 10 ^ places) ++ '.' :: decimals m places := by
  simp only [fixed, if_neg h.ne', Nat.toString_eq_ofList_toDigits]
  simp [decimals]

end Digits

/-- The sign of a number with decimals. -/
theorem signed_neg_iff {negative : Bool} {m : Nat} (hsign : negative = true → 0 < m) {d : Rat}
    (hd : 0 < d) :
    negative = true ↔ (if negative then -1 else 1) * (m / d) < 0 := by
  cases negative with
  | true =>
    have hm : (0 : Rat) < m := by exact_mod_cast hsign rfl
    have hpos : (0 : Rat) < m / d := by positivity
    simpa using hpos
  | false =>
    have hnonneg : (0 : Rat) ≤ m / d := by positivity
    simpa using hnonneg

theorem toList_signed (negative : Bool) (s : String) :
    ((if negative then "-" else "") ++ s).toList =
      (if negative then ['-'] else []) ++ s.toList := by
  cases negative <;> simp

/-- The numeral of a number with a fixed number of decimals. -/
def fixedNumeral (negative : Bool) (m places : Nat) (exponent : Option Int) : Numeral where
  negative := negative
  whole := (Nat.toDigits 10 (m / 10 ^ places)).map Json.digit
  fraction := if places = 0 then none else some ((Digits.decimals m places).map Json.digit)
  exponent := exponent

section
variable (negative : Bool) (m places : Nat)

theorem exact_fixedNumeral (exponent : Option Int) :
    (fixedNumeral negative m places exponent).exact =
      (if negative then -1 else 1) * (m / 10 ^ places) * 10 ^ exponent.getD 0 := by
  rcases Nat.eq_zero_or_pos places with rfl | hplaces
  · simp [fixedNumeral, Numeral.exact, Json.ofDigits_map]
  · simp only [fixedNumeral, Numeral.exact, if_neg hplaces.ne', Option.getD_some,
      ← List.map_append, Json.ofDigits_map, Digits.ofDigitChars_decimals hplaces, List.length_map,
      Digits.length_decimals hplaces]
    rw [zpow_sub₀ (by norm_num), zpow_natCast]
    ring

/-- What is written with a fixed number of decimals and an exponent is read. -/
theorem scan?_fixed {tail : List Char} {exponent : Option Int}
    (htail : ∀ c ∈ tail.head?, c.isDigit = false)
    (hpoint : Json.scanFraction? tail = some (none, tail))
    (hexponent : Json.scanExponent? tail = some (exponent, [])) :
    Numeral.scan? ((if negative then ['-'] else []) ++ ((Digits.fixed m places).toList ++ tail)) =
      some (fixedNumeral negative m places exponent, []) := by
  rcases Nat.eq_zero_or_pos places with rfl | hplaces
  · have hscan := Json.scan?_toDigits negative m htail hpoint hexponent
    simpa [Digits.fixed, fixedNumeral] using hscan
  · have hfraction := Json.scanFraction?_digits
      (List.ne_nil_of_length_pos ((Digits.length_decimals (m := m) hplaces).symm ▸ hplaces))
      (fun _ => Digits.isDigit_decimals) htail
    have hscan := Json.scan?_toDigits negative (m / 10 ^ places) (by simp) hfraction hexponent
    simpa [Digits.toList_fixed hplaces, fixedNumeral, hplaces.ne'] using hscan

end

/-- A number that is written with a fixed number of decimals. -/
theorem isDecimal_fixed (negative : Bool) {m : Nat} (hsign : negative = true → 0 < m)
    (places : Nat) :
    IsDecimal ((if negative then "-" else "") ++ Digits.fixed m places) places
      ((if negative then -1 else 1) * (m / 10 ^ places)) := by
  have hnil : ∀ c ∈ ([] : List Char).head?, c.isDigit = false := by simp
  have hscan := scan?_fixed negative m places hnil rfl rfl
  rw [List.append_nil, ← toList_signed] at hscan
  refine ⟨_, by rw [Numeral.ofText?, hscan], rfl, ?_, ?_,
    signed_neg_iff hsign (show (0 : Rat) < 10 ^ places by positivity)⟩
  · rcases Nat.eq_zero_or_pos places with rfl | hplaces
    · rfl
    · simp [fixedNumeral, Digits.length_decimals hplaces, hplaces.ne']
  · simp [exact_fixedNumeral]

theorem isDecimal_unsigned (m places : Nat) :
    IsDecimal (Digits.fixed m places) places (m / 10 ^ places) := by
  have hfixed := isDecimal_fixed false (m := m) (fun h => absurd h Bool.false_ne_true) places
  simpa using hfixed

theorem isDecimal_int (i : Int) : IsDecimal (toString i) 0 i := by
  cases i with
  | ofNat n =>
    have htext : toString (Int.ofNat n) = toString n := rfl
    rw [htext]
    simpa [Digits.fixed] using isDecimal_unsigned n 0
  | negSucc n =>
    have htext : toString (Int.negSucc n) = "-" ++ toString (n + 1) := rfl
    have hfixed := isDecimal_fixed true (m := n + 1) (fun _ => n.succ_pos) 0
    rw [htext]
    simpa [Digits.fixed, Int.negSucc_eq, add_comm] using hfixed

/-! ## One text for each number -/

/-- A decimal number is written in one way only. -/
theorem IsDecimal.eq_fixed {s : String} {p : Nat} {x : Rat} (h : IsDecimal s p x) :
    ∃ m : Nat, (m : Rat) = |x| * 10 ^ p ∧
      s = (if x < 0 then "-" else "") ++ Digits.fixed m p := by
  obtain ⟨whole, fraction, hlist, hne, hzero, hlength, hdigits, hvalue⟩ := h.toList_eq
  refine ⟨_, hvalue, String.toList_injective ?_⟩
  have hwhole := Json.toDigits_ofDigitChars hne hzero fun c hc =>
    hdigits c (List.mem_append_left _ hc)
  have hfraction := Json.ofDigitChars_lt fun c hc => hdigits c (List.mem_append_right whole hc)
  have hsign : ((if x < 0 then "-" else "") ++
      Digits.fixed (Nat.ofDigitChars 10 (whole ++ fraction) 0) p).toList =
        (if x < 0 then ['-'] else []) ++
          (Digits.fixed (Nat.ofDigitChars 10 (whole ++ fraction) 0) p).toList := by
    split <;> simp
  rw [hlist, hsign, List.append_assoc]
  congr 1
  rcases Nat.eq_zero_or_pos p with rfl | hp
  · obtain rfl := List.length_eq_zero_iff.1 hlength
    rw [List.append_nil, if_pos rfl, List.append_nil, Digits.fixed, if_pos rfl,
      Nat.toString_eq_ofList_toDigits, String.toList_ofList, hwhole]
  · have hdiv : Nat.ofDigitChars 10 (whole ++ fraction) 0 / 10 ^ p =
        Nat.ofDigitChars 10 whole 0 := by
      rw [hlength] at hfraction
      rw [Nat.ofDigitChars_append, Nat.ofDigitChars_eq_ofDigitChars_zero, hlength,
        Nat.mul_add_div (by positivity), Nat.div_eq_of_lt hfraction, Nat.add_zero]
    have hvalue' := Digits.ofDigitChars_decimals (m := Nat.ofDigitChars 10 (whole ++ fraction) 0) hp
    rw [hdiv, hwhole] at hvalue'
    rw [if_neg hp.ne', Digits.toList_fixed hp, hdiv, hwhole]
    congr 2
    refine List.append_cancel_left (Json.eq_of_ofDigitChars_eq hdigits ?_ ?_ hvalue'.symm)
    · simpa [or_imp, forall_and] using
        ⟨fun c hc => hdigits c (List.mem_append_left _ hc), fun _ => Digits.isDigit_decimals⟩
    · rw [List.length_append, List.length_append, hlength, Digits.length_decimals hp]

theorem IsDecimal.text_unique {s t : String} {p : Nat} {x : Rat} (hs : IsDecimal s p x)
    (ht : IsDecimal t p x) : s = t := by
  obtain ⟨m, hm, rfl⟩ := hs.eq_fixed
  obtain ⟨n, hn, rfl⟩ := ht.eq_fixed
  have hmn : m = n := by exact_mod_cast hm.trans hn.symm
  rw [hmn]

/-- The text is a decimal number. -/
def IsNumeral (s : String) : Prop := ∃ places x, IsDecimal s places x

theorem isNumeral_toString (n : Nat) : IsNumeral (toString n) := by
  have htext : Digits.fixed n 0 = toString n := if_pos rfl
  exact ⟨0, _, htext ▸ isDecimal_unsigned n 0⟩

end CourseCharts

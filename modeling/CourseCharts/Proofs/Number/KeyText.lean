/-
  CourseCharts — the texts of doubles that serve as record keys.

  A double is printed with the shortest digits that are read as it.

  * `Digits.WrittenAs` says how digits are written, and `Digits.WrittenAs.unique`
    that there is one way;
  * `Double.PrintedAs` says what the text of a double is, and
    `Double.printedAs_iff` that `keyText` is this text;
  * `Double.PrintedAs.read`: the text of a finite double is a numeral that is
    read as this double.
-/
import CourseCharts.Proofs.Number.Numeral
import CourseCharts.Proofs.Number.PowerOfTen
import CourseCharts.Proofs.Number.Shortest

namespace CourseCharts

open Json (Numeral)

/-! ## Digits -/

namespace Digits

/-- The digits with a sign are written as this text: from `1e-5` up to `1e16` as a decimal number
    with at least one decimal, and otherwise as a decimal number from one up to ten and a power of
    ten, whose sign is always written. -/
inductive WrittenAs (d : Digits) (negative : Bool) : String → Prop
  | plain {s} : 1 / 10 ^ 5 ≤ d.value → d.value < 10 ^ 16 →
      IsDecimal s (max 1 (-d.exponent).toNat) ((if negative then -1 else 1) * d.value) →
      WrittenAs d negative s
  | scientific {a b : String} {places : Nat} {r : Rat} {k : Int} :
      d.value < 1 / 10 ^ 5 ∨ 10 ^ 16 ≤ d.value → 1 ≤ r → r < 10 →
      d.significand = r * 10 ^ places → d.value = r * 10 ^ k →
      IsDecimal a places ((if negative then -1 else 1) * r) → IsDecimal b 0 k.natAbs →
      WrittenAs d negative (a ++ (if 0 ≤ k then "e+" else "e-") ++ b)

variable {d : Digits} {negative : Bool} {s t : String}

/-- Powers of ten of numbers from one up to ten. -/
theorem zpow_unique {q r : Rat} {j k : Int} (hq : 1 ≤ q ∧ q < 10) (hr : 1 ≤ r ∧ r < 10)
    (h : q * 10 ^ j = r * 10 ^ k) : j = k := by
  have hlt {q r : Rat} {j k : Int} (hq : q < 10) (hr : 1 ≤ r) (h : q * 10 ^ j = r * 10 ^ k) :
      k ≤ j := by
    have hj : (0 : Rat) < 10 ^ j := by positivity
    have hk : (0 : Rat) < 10 ^ k := by positivity
    have hlt : (10 : Rat) ^ k < 10 ^ (j + 1) := by
      calc (10 : Rat) ^ k ≤ r * 10 ^ k := le_mul_of_one_le_left hk.le hr
        _ = q * 10 ^ j := h.symm
        _ < 10 * 10 ^ j := mul_lt_mul_of_pos_right hq hj
        _ = 10 ^ (j + 1) := (zpow_one_add₀ (by norm_num) j).symm.trans (by rw [add_comm])
    exact Int.lt_add_one_iff.1 ((zpow_lt_zpow_iff_right₀ (by norm_num)).1 hlt)
  exact le_antisymm (hlt hr.2 hq.1 h.symm) (hlt hq.2 hr.1 h)

/-- Digits are written in one way only. -/
theorem WrittenAs.unique (hs : d.WrittenAs negative s) (ht : d.WrittenAs negative t) : s = t := by
  cases hs with
  | plain hlow hhigh hs =>
    cases ht with
    | plain _ _ ht => exact hs.text_unique ht
    | scientific hout => rcases hout with hout | hout <;> linarith
  | @scientific a b p q j hout hq hq' hp hvalue ha hb =>
    cases ht with
    | plain hlow hhigh => rcases hout with hout | hout <;> linarith
    | @scientific a' b' p' r k _ hr hr' hp' hvalue' ha' hb' =>
      obtain rfl := zpow_unique ⟨hq, hq'⟩ ⟨hr, hr'⟩ (hvalue.symm.trans hvalue')
      have hplaces : (p : Int) = p' := by
        refine zpow_unique ⟨hq, hq'⟩ ⟨hr, hr'⟩ ?_
        rw [zpow_natCast, zpow_natCast]
        exact hp.symm.trans hp'
      obtain rfl : p = p' := by exact_mod_cast hplaces
      obtain rfl := mul_right_cancel₀ (by positivity) (hp.symm.trans hp')
      rw [ha.text_unique ha', hb.text_unique hb']

/-! ### The layout of a key -/

theorem magnitude_eq (d : Digits) :
    d.magnitude = d.exponent + (Scalar.digitCount d.significand - 1 : Nat) := by
  have hpos := Scalar.digitCount_pos d.significand
  change d.exponent + (Scalar.digitCount d.significand : Int) - 1 = _
  omega

section
variable (h : 0 < d.significand)

include h

/-- The magnitude is the exponent of the greatest power of ten that is not above the number. -/
theorem magnitude_spec : 10 ^ d.magnitude ≤ d.value ∧ d.value < 10 ^ (d.magnitude + 1) := by
  have hunit : (0 : Rat) < 10 ^ d.exponent := by positivity
  have hsucc : d.magnitude + 1 = d.exponent + Scalar.digitCount d.significand := by
    have hpos := Scalar.digitCount_pos d.significand
    rw [magnitude_eq]
    omega
  constructor
  · rw [magnitude_eq, zpow_add₀ (by norm_num), zpow_natCast, value, mul_comm]
    gcongr
    exact_mod_cast Scalar.pow_digitCount_le h
  · rw [hsucc, zpow_add₀ (by norm_num), zpow_natCast, value, mul_comm]
    gcongr
    exact_mod_cast Scalar.lt_pow_digitCount d.significand

theorem zpow_le_value_iff {k : Int} : 10 ^ k ≤ d.value ↔ k ≤ d.magnitude := by
  obtain ⟨hlow, hhigh⟩ := magnitude_spec h
  constructor
  · intro hk
    have hlt := hk.trans_lt hhigh
    rw [zpow_lt_zpow_iff_right₀ (by norm_num)] at hlt
    exact Int.lt_add_one_iff.1 hlt
  · intro hk
    exact (zpow_le_zpow_right₀ (by norm_num) hk).trans hlow

end

/-- A point after the first digit. -/
theorem toList_fixed_leading {n : Nat} {c : Char} {cs : List Char}
    (h : Nat.toDigits 10 n = c :: cs) :
    (fixed n cs.length).toList = c :: (if cs = [] then [] else '.' :: cs) := by
  rcases eq_or_ne cs [] with rfl | hne
  · simp [fixed, h]
  · have hpos := List.length_pos_iff.2 hne
    have hlt : n < 10 ^ cs.length * 10 := by
      rw [← Nat.pow_succ, ← Nat.length_toDigits_le_iff (by decide) (Nat.succ_pos _), h]
      rfl
    have hfirst := Nat.toDigits_of_lt_base (Nat.div_lt_of_lt_mul hlt)
    have hvalue := ofDigitChars_decimals (m := n) hpos
    have hdigits : ∀ e ∈ Nat.toDigits 10 n, e.isDigit = true := fun _ => Json.isDigit_toDigits
    have hlist : (n / 10 ^ cs.length).digitChar :: decimals n cs.length = c :: cs := by
      rw [← h, ← List.singleton_append, ← hfirst]
      refine Json.eq_of_ofDigitChars_eq ?_ hdigits ?_ ?_
      · simpa [or_imp, forall_and] using
          ⟨fun _ => Json.isDigit_toDigits, fun _ => isDigit_decimals⟩
      · rw [hfirst, h, List.length_append, length_decimals hpos, List.length_cons, add_comm]
        rfl
      · rw [hvalue, Nat.ofDigitChars_ten_toDigits]
    obtain ⟨rfl, hcs⟩ := List.cons.inj hlist
    rw [toList_fixed hpos, hfirst, hcs, if_neg hne]
    rfl

/-- One digit before the point and an exponent. -/
theorem scientific_eq (d : Digits) :
    d.scientific = fixed d.significand (Scalar.digitCount d.significand - 1) ++
      (if 0 ≤ d.magnitude then "e+" else "e-") ++ toString d.magnitude.natAbs := by
  obtain ⟨c, cs, hlist⟩ := List.exists_cons_of_ne_nil
    (Nat.toDigits_ne_nil (n := d.significand) (b := 10))
  have hcount : Scalar.digitCount d.significand - 1 = cs.length := by
    rw [Scalar.digitCount, Nat.toString_eq_ofList_toDigits, hlist]
    simp
  have hsign : (if 0 ≤ d.magnitude then "e+" else "e-").toList =
      'e' :: (if 0 ≤ d.magnitude then "+" else "-").toList := by
    split <;> rfl
  refine String.toList_injective ?_
  rw [hcount, String.toList_append, String.toList_append, toList_fixed_leading hlist, hsign,
    scientific, Nat.toString_eq_ofList_toDigits, String.toList_ofList, hlist]
  cases cs <;> simp

theorem fixed_append_zero (n : Nat) : fixed n 0 ++ ".0" = fixed (10 * n) 1 := by
  have hdecimals : decimals (10 * n) 1 = ['0'] := by simp [decimals]
  refine String.toList_injective ?_
  rw [toList_fixed Nat.one_pos, hdecimals]
  simp [fixed]

/-- Digits without an exponent have one decimal at least. -/
theorem isDecimal_plain (h : 0 < d.significand) (negative : Bool) :
    IsDecimal ((if negative then "-" else "") ++
        if 0 ≤ d.exponent then d.positional ++ ".0" else d.positional)
      (max 1 (-d.exponent).toNat) ((if negative then -1 else 1) * d.value) := by
  unfold positional
  rcases le_or_gt 0 d.exponent with hexponent | hexponent
  · have hplaces : max 1 (-d.exponent).toNat = 1 := by omega
    have hvalue : d.value = (10 * (d.significand * 10 ^ d.exponent.toNat) : Nat) / 10 ^ 1 := by
      rw [value, ← Int.toNat_of_nonneg hexponent, zpow_natCast, Int.toNat_natCast]
      push_cast
      ring
    have hpos : 0 < 10 * (d.significand * 10 ^ d.exponent.toNat) := by positivity
    rw [if_pos hexponent, if_pos hexponent, hplaces, hvalue, fixed_append_zero]
    exact isDecimal_fixed negative (fun _ => hpos) 1
  · have hplaces : max 1 (-d.exponent).toNat = (-d.exponent).toNat := by omega
    have hneg : d.exponent = -((-d.exponent).toNat : Int) := by omega
    have hvalue : d.value = d.significand / 10 ^ (-d.exponent).toNat := by
      rw [value, hneg, zpow_neg, zpow_natCast, ← hneg, div_eq_mul_inv]
    rw [if_neg hexponent.not_ge, if_neg hexponent.not_ge, hplaces, hvalue]
    exact isDecimal_fixed negative (fun _ => h) _

/-- Digits with an exponent have one digit before the point. -/
theorem writtenAs_scientific (h : 0 < d.significand) (negative : Bool)
    (hout : d.value < 1 / 10 ^ 5 ∨ 10 ^ 16 ≤ d.value) :
    d.WrittenAs negative ((if negative then "-" else "") ++ d.scientific) := by
  have hcount := Nat.sub_add_cancel (Scalar.digitCount_pos d.significand)
  have hleast := Scalar.pow_digitCount_le h
  have hless := Scalar.lt_pow_digitCount d.significand
  have hmagnitude := d.magnitude_eq
  rw [scientific_eq, ← String.append_assoc, ← String.append_assoc]
  generalize Scalar.digitCount d.significand - 1 = places at *
  rw [← hcount, Nat.pow_succ, mul_comm] at hless
  have hpower : (0 : Rat) < 10 ^ places := by positivity
  refine .scientific (r := d.significand / 10 ^ places) hout ?_ ?_ ?_ ?_
    (isDecimal_fixed negative (fun _ => h) _) ?_
  · rw [one_le_div hpower]
    exact_mod_cast hleast
  · rw [div_lt_iff₀ hpower]
    exact_mod_cast hless
  · exact (div_mul_cancel₀ _ hpower.ne').symm
  · rw [hmagnitude, value, zpow_add₀ (by norm_num), zpow_natCast]
    field_simp
  · simpa [fixed] using isDecimal_unsigned d.magnitude.natAbs 0

theorem writtenAs_keyDigits (h : 0 < d.significand) (negative : Bool) :
    d.WrittenAs negative ((if negative then "-" else "") ++ Double.keyDigits d) := by
  have hlow : 1 / 10 ^ 5 ≤ d.value ↔ -5 ≤ d.magnitude := by
    rw [← zpow_le_value_iff h, zpow_neg, one_div]
    rfl
  have hhigh : 10 ^ 16 ≤ d.value ↔ 16 ≤ d.magnitude := by
    rw [← zpow_le_value_iff h]
    rfl
  rw [Double.keyDigits]
  by_cases hin : -5 ≤ d.magnitude ∧ d.magnitude < 16
  · rw [if_pos hin]
    have hless := not_le.1 (mt hhigh.1 (not_le.2 hin.2))
    exact .plain (hlow.2 hin.1) hless (isDecimal_plain h negative)
  · rw [if_neg hin]
    refine writtenAs_scientific h negative ?_
    rw [← not_le, hlow, hhigh]
    omega

/-- Digits are written as those of a key. -/
theorem writtenAs_iff (h : 0 < d.significand) :
    d.WrittenAs negative s ↔ s = (if negative then "-" else "") ++ Double.keyDigits d :=
  ⟨fun hs => hs.unique (writtenAs_keyDigits h negative),
    fun hs => hs ▸ writtenAs_keyDigits h negative⟩

/-! ### Reading -/

/-- An exponent with its sign. -/
theorem scanExponent?_signed (k : Int) :
    Json.scanExponent? ((if 0 ≤ k then "e+" else "e-").toList ++ Nat.toDigits 10 k.natAbs) =
      some (some k, []) := by
  have hscan : Json.scanDigits (Nat.toDigits 10 k.natAbs ++ []) =
      ((Nat.toDigits 10 k.natAbs).map Json.digit, []) :=
    Json.scanDigits_append (fun _ => Json.isDigit_toDigits) (by simp)
  have hvalue : Json.ofDigits ((Nat.toDigits 10 k.natAbs).map Json.digit) = k.natAbs := by
    rw [Json.ofDigits_map, Nat.ofDigitChars_ten_toDigits]
  rw [List.append_nil] at hscan
  obtain ⟨c, cs, hcs⟩ := List.exists_cons_of_ne_nil
    (Nat.toDigits_ne_nil (n := k.natAbs) (b := 10))
  rw [hcs, List.map_cons] at hscan hvalue
  split
  next hk =>
    have habs : (k.natAbs : Int) = k := Int.natAbs_of_nonneg hk
    simpa [Json.scanExponent?, Json.scanSign, hcs, hscan, hvalue] using habs
  next hk =>
    have habs : -(k.natAbs : Int) = k := by omega
    simpa [Json.scanExponent?, Json.scanSign, hcs, hscan, hvalue] using habs

/-- The text is a numeral with this value and this sign. -/
theorem WrittenAs.exists_numeral (hs : d.WrittenAs negative s) (h : 0 < d.significand) :
    ∃ n, Numeral.ofText? s = some n ∧ n.exact = (if negative then -1 else 1) * d.value := by
  cases hs with
  | plain _ _ hs =>
    obtain ⟨n, hn, -, -, hexact, -⟩ := hs
    exact ⟨n, hn, hexact⟩
  | @scientific a b places r k _ _ _ hsignificand hvalue ha hb =>
    have hpower : (0 : Rat) < 10 ^ places := by positivity
    obtain rfl : r = d.significand / 10 ^ places := (eq_div_iff hpower.ne').2 hsignificand.symm
    obtain rfl := ha.text_unique (isDecimal_fixed negative (fun _ => h) places)
    obtain rfl : b = toString k.natAbs :=
      hb.text_unique (by simpa [fixed] using isDecimal_unsigned k.natAbs 0)
    have htail : ∀ c ∈ ((if 0 ≤ k then "e+" else "e-").toList ++
        Nat.toDigits 10 k.natAbs).head?, c.isDigit = false := by
      split <;> simp
    have hscan := scan?_fixed negative d.significand places htail (by split <;> rfl)
      (scanExponent?_signed k)
    refine ⟨fixedNumeral negative d.significand places (some k), ?_, ?_⟩
    · rw [Numeral.ofText?, String.toList_append, String.toList_append, toList_signed,
        Nat.toString_eq_ofList_toDigits, String.toList_ofList, List.append_assoc, List.append_assoc,
        hscan]
    · rw [exact_fixedNumeral, Option.getD_some, mul_assoc, ← hvalue]

end Digits

/-! ## Doubles -/

namespace Double

open Float.Model Float.Model.UnpackedFloat

/-- The text of the double: the shortest digits that are read as it, with its sign. -/
def PrintedAs (x : Float) (s : String) : Prop :=
  match x.toModel.unpack with
  | .notANumber | .infinity _ => s = "null"
  | .zero .positive => s = "0.0"
  | .zero .negative => s = "-0.0"
  | .finite .positive m e _ => ∃ d, IsShortest m e d ∧ d.WrittenAs false s
  | .finite .negative m e _ => ∃ d, IsShortest m e d ∧ d.WrittenAs true s

section
variable {m : Nat} {e : Int} (hm : 0 < m) (h : Canonical m e) (he : e ≤ 971)

include hm h he

theorem exists_shortest_writtenAs_iff (negative : Bool) {s : String} :
    (∃ d, IsShortest m e d ∧ d.WrittenAs negative s) ↔
      s = (if negative then "-" else "") ++ keyDigits (shortest .even m e) := by
  have hshortest := shortest_isShortest hm h he
  have hpos := shortest_pos hm h he .even
  constructor
  · rintro ⟨d, hd, hs⟩
    obtain rfl := hd.unique hshortest
    exact (Digits.writtenAs_iff hpos).1 hs
  · intro hs
    exact ⟨_, hshortest, (Digits.writtenAs_iff hpos).2 hs⟩

end

/-- Doubles are printed so as keys. -/
theorem printedAs_iff {x : Float} {s : String} : PrintedAs x s ↔ s = keyText x := by
  unfold PrintedAs keyText
  cases hu : x.toModel.unpack with
  | notANumber => exact Iff.rfl
  | infinity => exact Iff.rfl
  | zero sign => cases sign <;> exact Iff.rfl
  | finite sign m e hm =>
    have hfinite : x.isFinite = true := by
      change x.toModel.unpack.isFinite = true
      rw [hu]
      rfl
    have hwithin := within_of_isFinite (x := x.toModel) hfinite
    rw [hu] at hwithin
    have hprinted (negative : Bool) :=
      exists_shortest_writtenAs_iff hm (canonical_unpack hu) hwithin.2 negative (s := s)
    cases sign with
    | positive => simpa using hprinted false
    | negative => exact hprinted true

example : [7.5, 3.0, 1e16, -2.5e-7].map keyText = ["7.5", "3.0", "1e+16", "-2.5e-7"] := by
  decide +kernel

/-! ## Read back -/

/-- The numeral is read as the double: as a zero with its sign, or the number without the sign
    is read as the double without it. -/
def ReadFrom (x : Float) (n : Numeral) : Prop :=
  match x.toModel.unpack with
  | .notANumber | .infinity _ => False
  | .zero .positive => n.exact = 0 ∧ n.negative = false
  | .zero .negative => n.exact = 0 ∧ n.negative = true
  | .finite .positive m e _ => ReadAs n.exact m e
  | .finite .negative m e _ => ReadAs (-n.exact) m e

/-- What is printed of a finite double is read back as it. -/
theorem PrintedAs.read {x : Float} {s : String} (h : PrintedAs x s) (hx : x.isFinite = true) :
    ∃ n, Numeral.ofText? s = some n ∧ ReadFrom x n := by
  have hproper := proper_unpack hx
  have hwithin := within_of_isFinite (x := x.toModel) hx
  unfold PrintedAs at h
  unfold ReadFrom
  cases hu : x.toModel.unpack with
  | notANumber => rw [hu] at hproper; exact hproper.elim
  | infinity => rw [hu] at hproper; exact hproper.elim
  | zero sign =>
    rw [hu] at h
    cases sign with
    | positive =>
      cases h
      exact ⟨⟨false, [0], some [0], none⟩, by decide, by simp [Numeral.exact, Json.ofDigits], rfl⟩
    | negative =>
      cases h
      exact ⟨⟨true, [0], some [0], none⟩, by decide, by simp [Numeral.exact, Json.ofDigits], rfl⟩
  | finite sign m e hm =>
    rw [hu] at h hproper hwithin
    have hpos {d : Digits} (hd : IsShortest m e d) : 0 < d.significand := by
      rw [hd.unique (shortest_isShortest hm hproper hwithin.2)]
      exact shortest_pos hm hproper hwithin.2 .even
    cases sign with
    | positive =>
      obtain ⟨d, hd, hs⟩ := h
      obtain ⟨n, hn, hexact⟩ := hs.exists_numeral (hpos hd)
      exact ⟨n, hn, by simpa [hexact] using hd.read⟩
    | negative =>
      obtain ⟨d, hd, hs⟩ := h
      obtain ⟨n, hn, hexact⟩ := hs.exists_numeral (hpos hd)
      exact ⟨n, hn, by simpa [hexact] using hd.read⟩

end Double

end CourseCharts

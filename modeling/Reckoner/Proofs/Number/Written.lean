import Reckoner.Number.Reading
import Reckoner.Proofs.Number.Decimals

/-! Decimals as they are written. Either form of the text of a decimal reads back as a decimal of
the same value and with the same significant digits. -/
namespace Reckoner.Number

/-- Digits on either side of a point. -/
def IsPlain (cs : List Char) : Prop :=
  ∃ whole fraction, whole ≠ [] ∧ fraction ≠ [] ∧
    (∀ c ∈ whole ++ fraction, Text.isDigit c = true) ∧ cs = whole ++ '.' :: fraction

/-- One digit, perhaps further ones after a point, and an exponent with its sign and at least two
digits. -/
def IsScientific (cs : List Char) : Prop :=
  ∃ first fraction sign exponent, (∀ c ∈ first :: fraction, Text.isDigit c = true) ∧
    (sign = '-' ∨ sign = '+') ∧ 2 ≤ exponent.length ∧ (∀ c ∈ exponent, Text.isDigit c = true) ∧
    cs = first :: (if fraction = [] then [] else '.' :: fraction) ++ 'e' :: sign :: exponent

section Reading

variable {whole fraction rest : List Char}

/-- Where a run of digits ends. -/
theorem span_digits (hwhole : ∀ c ∈ whole, Text.isDigit c = true)
    (hrest : ∀ c ∈ rest.head?, Text.isDigit c = false) :
    (whole ++ rest).takeWhile Text.isDigit = whole ∧
      (whole ++ rest).dropWhile Text.isDigit = rest := by
  have hstop : rest.takeWhile Text.isDigit = [] ∧ rest.dropWhile Text.isDigit = rest := by
    cases rest with
    | nil => exact ⟨rfl, rfl⟩
    | cons c cs =>
      have hc : Text.isDigit c = false := hrest c rfl
      simp [hc]
  rw [List.takeWhile_append_of_pos hwhole, List.dropWhile_append_of_pos hwhole, hstop.1, hstop.2,
    List.append_nil]
  exact ⟨rfl, rfl⟩

theorem readDecimal?_point (hne : whole ≠ []) (hwhole : ∀ c ∈ whole, Text.isDigit c = true)
    (hfraction : ∀ c ∈ fraction, Text.isDigit c = true)
    (hrest : ∀ c ∈ rest.head?, Text.isDigit c = false) :
    readDecimal? (whole ++ '.' :: (fraction ++ rest)) =
      (readExponent? rest).map fun exponent =>
        ⟨ofDigits (whole ++ fraction), exponent - fraction.length⟩ := by
  have hpoint : ∀ c ∈ ('.' :: (fraction ++ rest)).head?, Text.isDigit c = false := by
    rintro c ⟨⟩
    rfl
  obtain ⟨htake, hdrop⟩ := span_digits hwhole hpoint
  obtain ⟨htakeFraction, hdropFraction⟩ := span_digits hfraction hrest
  have hempty : whole.isEmpty = false := by simpa using hne
  unfold readDecimal?
  simp [htake, hdrop, htakeFraction, hdropFraction, hempty]

theorem readDecimal?_whole (hne : whole ≠ []) (hwhole : ∀ c ∈ whole, Text.isDigit c = true) :
    readDecimal? (whole ++ 'e' :: rest) =
      (readExponent? ('e' :: rest)).map fun exponent => ⟨ofDigits whole, exponent⟩ := by
  have hmark : ∀ c ∈ ('e' :: rest).head?, Text.isDigit c = false := by
    rintro c ⟨⟩
    rfl
  obtain ⟨htake, hdrop⟩ := span_digits hwhole hmark
  have hempty : whole.isEmpty = false := by simpa using hne
  unfold readDecimal?
  simp [htake, hdrop, hempty]

end Reading

theorem ofDigits_append (xs ys : List Char) :
    ofDigits (xs ++ ys) = ofDigits xs * 10 ^ ys.length + ofDigits ys := by
  suffices h : ∀ (ys : List Char) (a : Nat),
      ys.foldl (fun n c => 10 * n + (c.toNat - 48)) a = a * 10 ^ ys.length + ofDigits ys by
    rw [ofDigits, List.foldl_append]
    exact h ys _
  intro ys
  induction ys with
  | nil => intro a; simp [ofDigits]
  | cons y ys ih =>
    intro a
    simp only [ofDigits, List.foldl_cons, List.length_cons]
    rw [ih, ih (10 * 0 + (y.toNat - 48)), Nat.pow_succ]
    grind

@[simp] theorem ofDigits_replicate_zero (zeros : Nat) :
    ofDigits (List.replicate zeros '0') = 0 := by
  induction zeros with
  | zero => rfl
  | succ zeros ih =>
    rw [List.replicate_succ', ofDigits_append, ih]
    rfl

/-- The digits before and after the point of a decimal that is written out. -/
structure Placed (digits : List Char) (leading : ℤ) (whole fraction : List Char) : Prop where
  whole_ne : whole ≠ []
  fraction_ne : fraction ≠ []
  isDigit : ∀ c ∈ whole ++ fraction, Text.isDigit c = true
  value : (ofDigits (whole ++ fraction) : ℚ) * 10 ^ (-fraction.length : ℤ) =
    ofDigits digits * 10 ^ (leading + 1 - digits.length)

section Writing

variable {digits : List Char} (hne : digits ≠ [])
  (hdigits : ∀ c ∈ digits, Text.isDigit c = true) (leading : Int)

theorem isDigit_of_mem_replicate {zeros : Nat} {c : Char} (h : c ∈ List.replicate zeros '0') :
    Text.isDigit c = true := by
  rw [List.eq_of_mem_replicate h]
  rfl

include hne hdigits

theorem placed_take_drop {places : ℕ} (hlong : places + 1 < digits.length) :
    Placed digits places (digits.take (places + 1)) (digits.drop (places + 1)) where
  whole_ne := by simpa using hne
  fraction_ne := by simpa using hlong
  isDigit := by rwa [List.take_append_drop]
  value := by
    rw [List.take_append_drop, List.length_drop]
    congr 2
    omega

theorem placed_zeros_after {places zeros : ℕ} (hzeros : places + 1 = digits.length + zeros) :
    Placed digits places (digits ++ List.replicate zeros '0') ['0'] where
  whole_ne := by simp [hne]
  fraction_ne := List.cons_ne_nil _ _
  isDigit := by
    simp only [List.mem_append, List.mem_singleton]
    rintro c ((hc | hc) | rfl)
    · exact hdigits c hc
    · exact isDigit_of_mem_replicate hc
    · rfl
  value := by
    have hexponent : (places : ℤ) + 1 - digits.length = zeros := by omega
    have hshift : digits ++ List.replicate zeros '0' ++ ['0'] =
        digits ++ List.replicate (zeros + 1) '0' := by
      rw [List.append_assoc, List.replicate_succ']
    have hpoint : (10 : ℚ) ^ (-(['0'].length : ℤ)) = 10⁻¹ := by norm_num
    rw [hexponent, hshift, hpoint, ofDigits_append, ofDigits_replicate_zero, List.length_replicate,
      zpow_natCast]
    push_cast
    rw [pow_succ]
    ring

theorem placed_zeros_before (zeros : ℕ) :
    Placed digits (-(zeros + 1)) ['0'] (List.replicate zeros '0' ++ digits) where
  whole_ne := List.cons_ne_nil _ _
  fraction_ne := by simp [hne]
  isDigit := by
    simp only [List.mem_append, List.mem_singleton]
    rintro c (rfl | hc | hc)
    · rfl
    · exact isDigit_of_mem_replicate hc
    · exact hdigits c hc
  value := by
    have hshift : ['0'] ++ (List.replicate zeros '0' ++ digits) =
        List.replicate (zeros + 1) '0' ++ digits := by
      rw [List.replicate_succ]
      rfl
    rw [hshift, ofDigits_append, ofDigits_replicate_zero, zero_mul, zero_add, List.length_append,
      List.length_replicate]
    congr 2
    omega

/-- Written out, a decimal has its digits at the places that the leading one determines: zeros fill
up the places before or after them. -/
theorem exists_placed :
    ∃ whole fraction, Placed digits leading whole fraction ∧
      plain digits leading = whole ++ '.' :: fraction := by
  unfold plain
  split
  · next hleading =>
    obtain ⟨places, rfl⟩ := Int.eq_ofNat_of_zero_le hleading
    rw [Int.toNat_natCast]
    rcases Nat.lt_or_ge (places + 1) digits.length with hlong | hshort
    · have hzeros : places + 1 - digits.length = 0 := by omega
      exact ⟨_, _, placed_take_drop hne hdigits hlong, by simp [hzeros, hlong]⟩
    · obtain ⟨zeros, hzeros⟩ := Nat.exists_eq_add_of_le hshort
      exact ⟨_, _, placed_zeros_after hne hdigits hzeros, by simp [hzeros]⟩
  · next hleading =>
    obtain ⟨zeros, rfl⟩ : ∃ zeros : ℕ, leading = -(zeros + 1) := ⟨(-leading - 1).toNat, by omega⟩
    have hcount : (-(-((zeros : ℤ) + 1))).toNat - 1 = zeros := by omega
    rw [hcount]
    exact ⟨_, _, placed_zeros_before hne hdigits zeros, rfl⟩

theorem isPlain_plain : IsPlain (plain digits leading) := by
  obtain ⟨whole, fraction, hplaced, htext⟩ := exists_placed hne hdigits leading
  exact ⟨whole, fraction, hplaced.whole_ne, hplaced.fraction_ne, hplaced.isDigit, htext⟩

theorem readDecimal?_plain :
    ∃ d, readDecimal? (plain digits leading) = some d ∧
      d.value = ofDigits digits * 10 ^ (leading + 1 - digits.length) := by
  obtain ⟨whole, fraction, hplaced, htext⟩ := exists_placed hne hdigits leading
  obtain ⟨hwhole, hfraction⟩ := List.forall_mem_append.mp hplaced.isDigit
  have hread := @readDecimal?_point whole fraction [] hplaced.whole_ne hwhole hfraction (by simp)
  rw [List.append_nil, ← htext] at hread
  exact ⟨_, hread, by simpa [Decimal.value] using hplaced.value⟩

omit hdigits in
/-- The exponent that is written tells the place of the leading digit. -/
theorem exists_scientific_eq :
    ∃ first fraction sign exponent, digits = first :: fraction ∧ (sign = '-' ∨ sign = '+') ∧
      2 ≤ exponent.length ∧ (∀ c ∈ exponent, Text.isDigit c = true) ∧
      scientific digits leading =
        first :: (if fraction = [] then [] else '.' :: fraction) ++ 'e' :: sign :: exponent ∧
      (if sign = '-' then -(ofDigits exponent : ℤ) else ofDigits exponent) = leading := by
  obtain ⟨first, fraction, rfl⟩ := List.exists_cons_of_ne_nil hne
  have hsign : (if leading < 0 then '-' else '+') = '-' ↔ leading < 0 := by
    split <;> simp_all
  refine ⟨first, fraction, if leading < 0 then '-' else '+',
    List.replicate (2 - (toDigits leading.natAbs).length) '0' ++ toDigits leading.natAbs, rfl,
    by split <;> simp, ?_, ?_, ?_, ?_⟩
  · rw [List.length_append, List.length_replicate]
    omega
  · intro c hc
    rcases List.mem_append.mp hc with hzero | hdigit
    · exact isDigit_of_mem_replicate hzero
    · exact isDigit_of_mem_toDigits hdigit
  · cases fraction <;> simp [scientific]
  · rw [ofDigits_append, ofDigits_replicate_zero, ofDigits_toDigits, zero_mul, zero_add,
      if_congr hsign rfl rfl]
    split <;> omega

theorem isScientific_scientific : IsScientific (scientific digits leading) := by
  obtain ⟨first, fraction, sign, exponent, rfl, hsign, hlength, hexponent, htext, -⟩ :=
    exists_scientific_eq hne leading
  exact ⟨first, fraction, sign, exponent, hdigits, hsign, hlength, hexponent, htext⟩

theorem readDecimal?_scientific :
    readDecimal? (scientific digits leading) =
      some ⟨ofDigits digits, leading + 1 - digits.length⟩ := by
  obtain ⟨first, fraction, sign, exponent, rfl, hsign, hlength, hexponent, htext, hvalue⟩ :=
    exists_scientific_eq hne leading
  have hsome : exponent ≠ [] := List.ne_nil_of_length_pos (by omega)
  have hread := readExponent?_sign hsign hsome hexponent
  rw [hvalue] at hread
  obtain ⟨hfirst, hfraction⟩ := List.forall_mem_cons.mp hdigits
  have hwhole : ∀ c ∈ [first], Text.isDigit c = true := by simpa using hfirst
  have hmark : ∀ c ∈ ('e' :: sign :: exponent).head?, Text.isDigit c = false := by
    rintro c ⟨⟩
    rfl
  rw [htext]
  by_cases hnone : fraction = []
  · rw [if_pos hnone, hnone]
    refine (readDecimal?_whole (List.cons_ne_nil first []) hwhole).trans ?_
    simp [hread]
  · rw [if_neg hnone]
    have hpoint := readDecimal?_point (List.cons_ne_nil first []) hwhole hfraction hmark
    refine Eq.trans (by simp) (hpoint.trans ?_)
    have hlast : leading + 1 - (first :: fraction).length = leading - fraction.length := by
      rw [List.length_cons]
      omega
    rw [hread, hlast]
    rfl

end Writing

namespace Decimal

variable {d : Decimal}

/-- The significant digits and the place of the first one determine the value. -/
theorem value_eq_significant (h : 0 < d.digits) :
    d.significant ≠ [] ∧ (∀ c ∈ d.significant, Text.isDigit c = true) ∧
      d.value = ofDigits d.significant * 10 ^ (d.leading + 1 - d.significant.length) := by
  obtain ⟨n, zeros, hdigits, hten, hsignificant⟩ := exists_significant h
  have hn : 0 < n := Nat.pos_of_ne_zero (by rintro rfl; exact hten (dvd_zero 10))
  rw [hsignificant]
  refine ⟨toDigits_ne_nil n, fun c hc => isDigit_of_mem_toDigits hc, ?_⟩
  have hlength : d.leading + 1 - (toDigits n).length = zeros + d.exponent := by
    rw [leading, hdigits, toDigits_mul_pow hn, List.length_append, List.length_replicate]
    push_cast
    ring
  rw [hlength, ofDigits_toDigits, value, hdigits, zpow_add₀ (by norm_num : (10 : ℚ) ≠ 0),
    zpow_natCast]
  push_cast
  ring

theorem readDecimal?_text (h : 0 < d.digits) :
    ∃ other, readDecimal? d.text = some other ∧ other.value = d.value := by
  obtain ⟨hne, hdigits, hvalue⟩ := value_eq_significant h
  unfold text
  split
  · rw [hvalue]
    exact readDecimal?_plain hne hdigits d.leading
  · exact ⟨_, readDecimal?_scientific hne hdigits d.leading, hvalue.symm⟩

end Decimal

end Reckoner.Number

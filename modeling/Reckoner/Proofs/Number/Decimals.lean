import Mathlib.Algebra.Order.Field.Power
import Mathlib.Data.Int.Log
import Mathlib.Data.List.DropRight
import Mathlib.Data.Nat.Factorization.Basic
import Mathlib.Data.Rat.Floor
import Mathlib.Tactic.Linarith
import Mathlib.Tactic.NormNum
import Mathlib.Tactic.Positivity
import Mathlib.Tactic.Ring
import Reckoner.Number.Numeral

/-! Decimals by their exact values. Where the digits of a decimal begin and which of them count
depends on its value alone, and so does the text that it is written as. -/
namespace Reckoner.Number

theorem ten_zpow_pos (exponent : ℤ) : (0 : ℚ) < 10 ^ exponent := by positivity

section Digits

@[simp] theorem ofDigits_toDigits (n : Nat) : ofDigits (toDigits n) = n :=
  Nat.ofDigitChars_ten_toDigits

theorem toDigits_ne_nil (n : Nat) : toDigits n ≠ [] := Nat.toDigits_ne_nil

theorem length_toDigits_pos (n : Nat) : 0 < (toDigits n).length := Nat.length_toDigits_pos

theorem length_toDigits_le_iff {n k : Nat} (h : 0 < k) :
    (toDigits n).length ≤ k ↔ n < 10 ^ k := Nat.length_toDigits_le_iff (by decide) h

theorem toDigits_ten_mul_add {n d : Nat} (hn : 0 < n) (hd : d < 10) :
    toDigits (10 * n + d) = toDigits n ++ [Nat.digitChar d] := by
  rw [toDigits, ← Nat.toDigits_append_toDigits (by decide) hn hd, Nat.toDigits_of_lt_base hd]
  rfl

theorem toDigits_mul_pow {n : Nat} (hn : 0 < n) (zeros : Nat) :
    toDigits (n * 10 ^ zeros) = toDigits n ++ List.replicate zeros '0' := by
  induction zeros with
  | zero => simp
  | succ zeros ih =>
    have hpos : 0 < n * 10 ^ zeros := by positivity
    have hmul : n * 10 ^ (zeros + 1) = 10 * (n * 10 ^ zeros) + 0 := by ring
    rw [hmul, toDigits_ten_mul_add hpos (by decide), ih, List.append_assoc, List.replicate_succ']
    rfl

/-- The last digit of a number is zero only if ten divides it. -/
theorem getLast_toDigits_ne_zero {n : Nat} (h : ¬10 ∣ n) :
    (toDigits n).getLast (toDigits_ne_nil n) ≠ '0' := by
  have hlast : ∀ d < 10, d ≠ 0 → Nat.digitChar d ≠ '0' := by decide
  have hmod : n % 10 ≠ 0 := fun hzero => h (Nat.dvd_of_mod_eq_zero hzero)
  by_cases hsmall : n < 10
  · have hdigits : toDigits n = [Nat.digitChar n] := Nat.toDigits_of_lt_base hsmall
    simp only [hdigits, List.getLast_singleton]
    exact hlast n hsmall (by omega)
  · have hdigits : toDigits n = toDigits (n / 10) ++ [Nat.digitChar (n % 10)] :=
      Nat.toDigits_of_base_le (by decide) (not_lt.mp hsmall)
    simp only [hdigits, List.getLast_append_singleton]
    exact hlast _ (Nat.mod_lt n (by decide)) hmod

theorem digitCount_le_iff {n k : Nat} : digitCount n ≤ k ↔ n < 10 ^ k := by
  unfold digitCount
  split
  · next hzero => simp [hzero]
  · next hpos =>
    rcases Nat.eq_zero_or_pos k with rfl | hk
    · have hlength := length_toDigits_pos n
      simp only [Nat.pow_zero]
      omega
    · exact length_toDigits_le_iff hk

theorem lt_digitCount_iff {n k : Nat} : k < digitCount n ↔ 10 ^ k ≤ n := by
  rw [← not_le, digitCount_le_iff, not_lt]

end Digits

theorem eq_log_ten {q : ℚ} {exponent : ℤ} (hlow : 10 ^ exponent ≤ q)
    (hhigh : q < 10 ^ (exponent + 1)) : exponent = Int.log 10 q := by
  have hpos : 0 < q := (ten_zpow_pos exponent).trans_le hlow
  have hle : exponent ≤ Int.log 10 q := (Int.zpow_le_iff_le_log (by decide) hpos).mp hlow
  have hlt : Int.log 10 q < exponent + 1 := (Int.lt_zpow_iff_log_lt (by decide) hpos).mp hhigh
  omega

/-- The place of the leading digit is the integral part of the logarithm. -/
theorem leadingExponent_eq_log {num den : Nat} (hnum : 0 < num) (hden : 0 < den) :
    leadingExponent num den = Int.log 10 ((num : ℚ) / den) := by
  have hdenPos : (0 : ℚ) < den := by exact_mod_cast hden
  have hnumPos : (0 : ℚ) < num := by exact_mod_cast hnum
  unfold leadingExponent
  split
  · next hge =>
    have hdiv : 0 < num / den := Nat.div_pos hge hden
    obtain ⟨count, hcount⟩ : ∃ count, digitCount (num / den) = count + 1 :=
      Nat.exists_eq_add_one.mpr (lt_digitCount_iff.mpr hdiv)
    have hlow : 10 ^ count * den ≤ num :=
      (Nat.le_div_iff_mul_le hden).mp (lt_digitCount_iff.mp (by omega))
    have hhigh : num < 10 ^ (count + 1) * den :=
      (Nat.div_lt_iff_lt_mul hden).mp (digitCount_le_iff.mp hcount.le)
    have hexponent : ((count + 1 : ℕ) : ℤ) - 1 = (count : ℤ) := by omega
    rw [hcount, hexponent]
    refine eq_log_ten ?_ ?_
    · rw [zpow_natCast, le_div_iff₀ hdenPos]
      exact_mod_cast hlow
    · rw [← Nat.cast_succ, zpow_natCast, div_lt_iff₀ hdenPos]
      exact_mod_cast hhigh
  · next hlt =>
    have hless : num < den := not_le.mp hlt
    have hdiv : 0 < (den - 1) / num := Nat.div_pos (by omega) hnum
    obtain ⟨count, hcount⟩ : ∃ count, digitCount ((den - 1) / num) = count + 1 :=
      Nat.exists_eq_add_one.mpr (lt_digitCount_iff.mpr hdiv)
    have hlow : 10 ^ count * num ≤ den - 1 :=
      (Nat.le_div_iff_mul_le hnum).mp (lt_digitCount_iff.mp (by omega))
    have hhigh : den - 1 < 10 ^ (count + 1) * num :=
      (Nat.div_lt_iff_lt_mul hnum).mp (digitCount_le_iff.mp hcount.le)
    have hten : (10 : ℚ) ^ count * num < den := by
      exact_mod_cast (by omega : 10 ^ count * num < den)
    have htenSucc : (den : ℚ) ≤ 10 ^ (count + 1) * num := by
      exact_mod_cast (by omega : den ≤ 10 ^ (count + 1) * num)
    have hexponent : -((count + 1 : ℕ) : ℤ) + 1 = -(count : ℤ) := by omega
    rw [hcount]
    refine eq_log_ten ?_ ?_
    · rw [zpow_neg, zpow_natCast, inv_le_iff_one_le_mul₀ (by positivity), div_mul_eq_mul_div,
        le_div_iff₀ hdenPos, one_mul, mul_comm]
      exact htenSucc
    · rw [hexponent, zpow_neg, zpow_natCast, lt_inv_comm₀ (by positivity) (by positivity), inv_div,
        lt_div_iff₀ hnumPos]
      exact hten

namespace Decimal

def value (d : Decimal) : ℚ := d.digits * 10 ^ d.exponent

variable {d other : Decimal}

@[simp] theorem value_pos_iff : 0 < d.value ↔ 0 < d.digits := by
  rw [value, mul_pos_iff_of_pos_right (ten_zpow_pos _), Nat.cast_pos]

theorem leading_eq_log (h : 0 < d.digits) : d.leading = Int.log 10 d.value := by
  obtain ⟨count, hcount⟩ : ∃ count, (toDigits d.digits).length = count + 1 :=
    Nat.exists_eq_add_one.mpr (length_toDigits_pos d.digits)
  have hlow : 10 ^ count ≤ d.digits := by
    rw [← lt_digitCount_iff, digitCount, if_neg h.ne', hcount]
    exact Nat.lt_succ_self count
  have hhigh : d.digits < 10 ^ (count + 1) :=
    (length_toDigits_le_iff (Nat.succ_pos count)).mp hcount.le
  have hexponent : d.leading = count + d.exponent := by
    rw [leading, hcount]
    push_cast
    ring
  have hten := ten_zpow_pos d.exponent
  have hne : (10 : ℚ) ≠ 0 := by norm_num
  refine eq_log_ten ?_ ?_
  · rw [hexponent, zpow_add₀ hne, zpow_natCast]
    exact mul_le_mul_of_nonneg_right (by exact_mod_cast hlow) hten.le
  · have hsucc : (count : ℤ) + d.exponent + 1 = (count + 1 : ℕ) + d.exponent := by
      push_cast
      ring
    rw [hexponent, hsucc, zpow_add₀ hne, zpow_natCast]
    exact mul_lt_mul_of_pos_right (by exact_mod_cast hhigh) hten

/-- Zeros at the end of the digits do not count. -/
theorem significant_of_eq_mul_pow {n zeros : Nat} (hdigits : d.digits = n * 10 ^ zeros)
    (h : ¬10 ∣ n) : d.significant = toDigits n := by
  have hpos : 0 < n := Nat.pos_of_ne_zero (by rintro rfl; exact h (dvd_zero 10))
  have hlast : List.rdropWhile (· == '0') (toDigits n) = toDigits n :=
    List.rdropWhile_eq_self_iff.mpr fun _ => by simpa using getLast_toDigits_ne_zero h
  have hzeros : ∀ c ∈ List.replicate zeros '0', (c == '0') = true := by simp
  rw [significant, hdigits, toDigits_mul_pow hpos, List.reverse_append, List.reverse_replicate,
    List.dropWhile_append_of_pos hzeros]
  exact hlast

theorem exists_significant (h : 0 < d.digits) :
    ∃ n zeros, d.digits = n * 10 ^ zeros ∧ ¬10 ∣ n ∧ d.significant = toDigits n := by
  obtain ⟨zeros, n, hn, hdigits⟩ := Nat.exists_eq_pow_mul_and_not_dvd h.ne' 10 (by decide)
  rw [mul_comm] at hdigits
  exact ⟨n, zeros, hdigits, hn, significant_of_eq_mul_pow hdigits hn⟩

theorem significant_of_digits_eq_zero (h : d.digits = 0) : d.significant = [] := by
  rw [significant, h]
  rfl

/-- How a value is written without zeros at the end. -/
theorem eq_of_mul_zpow_eq {m n : Nat} {a b : ℤ} (hm : ¬10 ∣ m) (hn : ¬10 ∣ n)
    (h : (m : ℚ) * 10 ^ a = n * 10 ^ b) : m = n ∧ a = b := by
  have hten : (10 : ℚ) ≠ 0 := by norm_num
  have hle {m n : Nat} {a b : ℤ} (hm : ¬10 ∣ m) (h : (m : ℚ) * 10 ^ a = n * 10 ^ b) : b ≤ a := by
    by_contra hlt
    obtain ⟨gap, rfl⟩ : ∃ gap : ℕ, b = a + (gap + 1 : ℕ) := ⟨(b - a - 1).toNat, by omega⟩
    have hmul : (m : ℚ) = n * 10 ^ (gap + 1) := by
      rw [zpow_add₀ hten, mul_comm (10 ^ a), ← mul_assoc] at h
      have hcancel := mul_right_cancel₀ (ten_zpow_pos a).ne' h
      rwa [zpow_natCast] at hcancel
    have hnat : m = n * 10 ^ (gap + 1) := by exact_mod_cast hmul
    exact hm ⟨n * 10 ^ gap, by rw [hnat, pow_succ]; ring⟩
  have hab : a = b := le_antisymm (hle hn h.symm) (hle hm h)
  subst hab
  have hmn := mul_right_cancel₀ (ten_zpow_pos a).ne' h
  exact ⟨by exact_mod_cast hmn, rfl⟩

theorem significant_eq_of_value_eq (h : d.value = other.value) :
    d.significant = other.significant := by
  rcases Nat.eq_zero_or_pos d.digits with hzero | hpos
  · have hother : other.digits = 0 := by
      by_contra hne
      have hvalue := value_pos_iff.mpr (Nat.pos_of_ne_zero hne)
      rw [← h, value_pos_iff, hzero] at hvalue
      exact lt_irrefl 0 hvalue
    rw [significant_of_digits_eq_zero hzero, significant_of_digits_eq_zero hother]
  · have hother : 0 < other.digits := value_pos_iff.mp (h ▸ value_pos_iff.mpr hpos)
    obtain ⟨m, i, hm, htenM, hsignificant⟩ := exists_significant hpos
    obtain ⟨n, j, hn, htenN, hsignificantOther⟩ := exists_significant hother
    have hten : (10 : ℚ) ≠ 0 := by norm_num
    have hvalues : (m : ℚ) * 10 ^ (i + d.exponent) = n * 10 ^ (j + other.exponent) := by
      rw [value, value, hm, hn] at h
      push_cast at h
      rw [zpow_add₀ hten, zpow_add₀ hten, zpow_natCast, zpow_natCast]
      linarith
    rw [hsignificant, hsignificantOther, (eq_of_mul_zpow_eq htenM htenN hvalues).1]

theorem leading_eq_of_value_eq (hpos : 0 < d.digits) (h : d.value = other.value) :
    d.leading = other.leading := by
  have hother : 0 < other.digits := value_pos_iff.mp (h ▸ value_pos_iff.mpr hpos)
  rw [leading_eq_log hpos, leading_eq_log hother, h]

theorem text_eq_of_value_eq (hpos : 0 < d.digits) (h : d.value = other.value) :
    d.text = other.text := by
  rw [text, text, leading_eq_of_value_eq hpos h, significant_eq_of_value_eq h]

/-- A decimal with so many significant digits is a number with so many digits, shifted. -/
theorem length_significant_le_iff {k : Nat} :
    d.significant.length ≤ k ↔ ∃ (n : ℕ) (exponent : ℤ), n < 10 ^ k ∧ d.value = n * 10 ^ exponent := by
  rcases Nat.eq_zero_or_pos d.digits with hzero | hpos
  · rw [significant_of_digits_eq_zero hzero]
    refine ⟨fun _ => ⟨0, 0, by positivity, by simp [value, hzero]⟩, fun _ => by simp⟩
  obtain ⟨m, zeros, hdigits, hten, hsignificant⟩ := exists_significant hpos
  have hm : 0 < m := Nat.pos_of_ne_zero (by rintro rfl; exact hten (dvd_zero 10))
  have hlength (n : ℕ) (hn : 0 < n) : (toDigits n).length ≤ k ↔ n < 10 ^ k := by
    have hcount : digitCount n = (toDigits n).length := by rw [digitCount, if_neg hn.ne']
    rw [← hcount, digitCount_le_iff]
  constructor
  · intro hle
    rw [hsignificant] at hle
    refine ⟨m, zeros + d.exponent, (hlength m hm).mp hle, ?_⟩
    rw [value, hdigits, zpow_add₀ (by norm_num : (10 : ℚ) ≠ 0), zpow_natCast]
    push_cast
    ring
  · rintro ⟨n, exponent, hn, hvalue⟩
    have hshort : d.value = value ⟨n, exponent⟩ := hvalue
    have hshortPos : 0 < (Decimal.mk n exponent).digits :=
      value_pos_iff.mp (hshort ▸ value_pos_iff.mpr hpos)
    obtain ⟨p, i, hp, hpTen, hpSignificant⟩ := exists_significant hshortPos
    have hpPos : 0 < p := Nat.pos_of_ne_zero (by rintro rfl; exact hpTen (dvd_zero 10))
    have hple : p ≤ n := by
      have hn : n = p * 10 ^ i := hp
      rw [hn]
      exact Nat.le_mul_of_pos_right p (by positivity)
    rw [significant_eq_of_value_eq hshort, hpSignificant, hlength p hpPos]
    exact hple.trans_lt hn

end Decimal

end Reckoner.Number

import Reckoner.Proofs.Number.Nearest
import Reckoner.Proofs.Number.Patterns
import Reckoner.Proofs.Number.Shortest

/-! Natural numbers as doubles. Up to `2 ^ 53` all of them are values of ranks, and next to each
other, so each is shown with its own digits; those that are too large become infinity. -/
namespace Reckoner.Number

section Exact

variable {n rank : Nat}

theorem exists_binade_of_le (hpos : 0 < n) (hle : n ≤ 2 ^ 53) :
    ∃ shift ≤ 52, 2 ^ 52 ≤ n * 2 ^ shift ∧ n * 2 ^ shift ≤ 2 ^ 53 := by
  rcases Nat.lt_or_eq_of_le hle with hlt | rfl
  · have hlog : n.log2 ≤ 52 := Nat.lt_succ_iff.mp ((Nat.log2_lt hpos.ne').mpr hlt)
    obtain ⟨shift, hshift⟩ := Nat.exists_eq_add_of_le hlog
    refine ⟨shift, by omega, ?_, ?_⟩
    · rw [hshift, pow_add]
      exact Nat.mul_le_mul_right _ (Nat.log2_self_le hpos.ne')
    · have hsucc : 53 = n.log2 + 1 + shift := by omega
      rw [hsucc, pow_add]
      exact Nat.mul_le_mul_right _ Nat.lt_log2_self.le
  · exact ⟨0, by decide⟩

/-- A number with at most 53 binary digits is a value, and so is the next one. -/
theorem exists_rankValue_eq (hle : n ≤ 2 ^ 53) : ∃ rank, rankValue rank = n := by
  rcases Nat.eq_zero_or_pos n with rfl | hpos
  · exact ⟨0, by simp⟩
  obtain ⟨shift, hshift, hlow, hhigh⟩ := exists_binade_of_le hpos hle
  refine ⟨(1074 - shift) * 2 ^ 52 + n * 2 ^ shift, ?_⟩
  have hexponent : leastExponent + (1074 - shift : ℕ) = -shift := by
    rw [leastExponent]
    omega
  rw [rankValue_binade hhigh (.inr hlow), hexponent, zpow_neg, zpow_natCast]
  push_cast
  field_simp

theorem lt_infinityRank_of_rankValue_eq (hle : n ≤ 2 ^ 53) (hrank : rankValue rank = n) :
    rank < infinityRank := by
  rw [← rankValue_strictMono.lt_iff_lt, hrank, rankValue_infinityRank]
  have hcast : (n : ℚ) ≤ 2 ^ 53 := by exact_mod_cast hle
  exact hcast.trans_lt (pow_lt_pow_right₀ (by norm_num) (by norm_num))

theorem roundsTo_nearestRank_natCast (n : Nat) : RoundsTo n (nearestRank n 1) := by
  have h : RoundsTo ((n : ℚ) / (1 : ℕ)) (nearestRank n 1) := roundsTo_nearestRank Nat.one_pos
  rwa [Nat.cast_one, div_one] at h

theorem rankValue_nearestRank (hle : n ≤ 2 ^ 53) : rankValue (nearestRank n 1) = n := by
  obtain ⟨rank, hrank⟩ := exists_rankValue_eq hle
  have hround := roundsTo_nearestRank_natCast n
  rw [← hrank] at hround ⊢
  rw [hround.unique (roundsTo_rankValue (lt_infinityRank_of_rankValue_eq hle hrank))]

theorem nearestRank_eq_infinityRank (hge : 2 ^ 1024 - 2 ^ 970 ≤ n) :
    nearestRank n 1 = infinityRank := by
  refine (roundsTo_nearestRank_natCast n).infinite ?_
  have hcast : ((2 ^ 1024 : ℕ) : ℚ) ≤ (n + 2 ^ 970 : ℕ) :=
    Nat.cast_le.mpr (Nat.sub_le_iff_le_add.mp hge)
  rw [overflowThreshold, sub_le_iff_le_add]
  simpa only [Nat.cast_add, Nat.cast_pow, Nat.cast_ofNat] using hcast

theorem rank_lt_rank {m other : Nat} (hrank : rankValue rank = n) (hother : rankValue other = m)
    (hlt : n < m) : rank < other := by
  rw [← rankValue_strictMono.lt_iff_lt, hrank, hother]
  exact_mod_cast hlt

/-- The number before is a value, too, so what rounds to one of them lies above the half between. -/
theorem le_of_between {m : Nat} (hpos : 0 < n) (hle : n ≤ 2 ^ 53) (hrank : rankValue rank = n)
    (h : Between m rank) : n ≤ m := by
  obtain ⟨previous, hprevious⟩ := exists_rankValue_eq (n := n - 1) (by omega)
  have hlt : previous < rank := rank_lt_rank hprevious hrank (by omega)
  have hmono : rankValue previous ≤ rankValue (rank - 1) :=
    rankValue_strictMono.monotone (by omega)
  obtain ⟨hbelow, -⟩ := h.below (rank - 1) (by omega)
  rw [hprevious, Nat.cast_sub hpos, Nat.cast_one] at hmono
  rw [hrank] at hbelow
  have hcast : (n : ℚ) < m + 1 := by linarith
  exact Nat.lt_succ_iff.mp (by exact_mod_cast hcast)

theorem two_mul_le_of_between {m next gap : Nat} (hgap : 0 < gap) (hrank : rankValue rank = n)
    (hnext : rankValue next = (n + gap : ℕ)) (h : Between m rank) : 2 * m ≤ 2 * n + gap := by
  have hlt : rank < next := rank_lt_rank hrank hnext (by omega)
  have hmono : rankValue (rank + 1) ≤ rankValue next := rankValue_strictMono.monotone hlt
  have habove := h.above.1
  rw [hnext] at hmono
  rw [hrank] at habove
  push_cast at hmono
  have hcast : (2 * m : ℚ) ≤ 2 * n + gap := by linarith
  exact_mod_cast hcast

/-- Whole numbers that round to one of them are equal to it, except at the largest, which is even
and where the steps become larger. -/
theorem natCast_eq_of_between {m : Nat} (hpos : 0 < n) (hle : n ≤ 2 ^ 53)
    (hrank : rankValue rank = n) (h : Between m rank) : m = n ∨ (n = 2 ^ 53 ∧ m = 2 ^ 53 + 1) := by
  have hlow := le_of_between hpos hle hrank h
  rcases Nat.lt_or_eq_of_le hle with hlt | rfl
  · obtain ⟨next, hnext⟩ := exists_rankValue_eq (n := n + 1) hlt
    have hhigh := two_mul_le_of_between Nat.one_pos hrank hnext h
    exact .inl (by omega)
  · have hnext : rankValue (1075 * 2 ^ 52 + (2 ^ 52 + 1)) = (2 ^ 53 + 2 : ℕ) := by
      rw [rankValue_binade (by norm_num) (.inr (by norm_num))]
      norm_num [leastExponent]
    have hhigh := two_mul_le_of_between Nat.two_pos hrank hnext h
    omega

/-- A shorter numeral would be a multiple of ten that rounds to the number. -/
theorem value_shortest (hpos : 0 < n) (hle : n ≤ 2 ^ 53) (hrank : rankValue rank = n) :
    (shortest rank).value = n := by
  have hrankPos : 0 < rank := by
    rw [← rankValue_strictMono.lt_iff_lt, rankValue_zero, hrank]
    exact_mod_cast hpos
  obtain ⟨length, h⟩ := exists_found hrankPos
  generalize shortest rank = d at *
  rw [Decimal.value]
  rcases le_or_gt d.exponent 0 with hfine | hcoarse
  · obtain ⟨places, hplaces⟩ := Int.eq_ofNat_of_zero_le (neg_nonneg.mpr hfine)
    have hexponent : d.exponent = -places := by omega
    have hdigits : d.digits = n * 10 ^ places := by
      refine h.multiple _ ?_
      rw [hrank, hexponent, zpow_neg, zpow_natCast]
      push_cast
      field_simp
    rw [hdigits, hexponent, zpow_neg, zpow_natCast]
    push_cast
    field_simp
  · obtain ⟨zeros, hzeros⟩ : ∃ zeros : ℕ, d.exponent = (zeros + 1 : ℕ) :=
      ⟨(d.exponent - 1).toNat, by omega⟩
    have hbetween := h.between
    have hvalue : d.value = (10 * (d.digits * 10 ^ zeros) : ℕ) := by
      rw [Decimal.value, hzeros, zpow_natCast, pow_succ]
      push_cast
      ring
    rw [← Decimal.value, hvalue]
    rw [hvalue] at hbetween
    rcases natCast_eq_of_between hpos hle hrank hbetween with heq | ⟨-, hnext⟩
    · rw [heq]
    · omega

end Exact

section Text

variable {n : Nat}

/-- A natural number that is written out has its digits before the point and a zero after it. -/
theorem Decimal.text_natural (hpos : 0 < n) (hlt : n < 10 ^ 16) :
    (Decimal.mk n 0).text = toDigits n ++ ['.', '0'] := by
  obtain ⟨m, zeros, hn, hten, hsignificant⟩ := @Decimal.exists_significant ⟨n, 0⟩ hpos
  have hm : 0 < m := Nat.pos_of_ne_zero (by rintro rfl; exact hten (dvd_zero 10))
  have hdigits : toDigits n = toDigits m ++ List.replicate zeros '0' := by
    have hn : n = m * 10 ^ zeros := hn
    rw [hn, toDigits_mul_pow hm]
  have hlength : (toDigits n).length = (toDigits m).length + zeros := by
    rw [hdigits, List.length_append, List.length_replicate]
  have hleading : (Decimal.mk n 0).leading = ((toDigits n).length - 1 : ℕ) := by
    have hcount := length_toDigits_pos n
    rw [Decimal.leading]
    dsimp only
    omega
  have hshort : (toDigits n).length ≤ 16 := (length_toDigits_le_iff (by decide)).mpr hlt
  have hwhole : (toDigits n).length - 1 + 1 = (toDigits n).length := by
    have hcount := length_toDigits_pos n
    omega
  rw [Decimal.text, hsignificant, hleading, if_pos (by omega), plain, if_pos (by omega),
    Int.toNat_natCast, hwhole, hlength, hdigits]
  simp

theorem magnitudeText_nearestRank (hle : n ≤ 2 ^ 53) :
    magnitudeText (nearestRank n 1) = toDigits n ++ ['.', '0'] := by
  rcases Nat.eq_zero_or_pos n with rfl | hpos
  · rfl
  have hrank := rankValue_nearestRank hle
  have hfinite := lt_infinityRank_of_rankValue_eq hle hrank
  have hvalue := value_shortest hpos hle hrank
  have hne : nearestRank n 1 ≠ 0 := by
    intro hzero
    rw [hzero, rankValue_zero] at hrank
    exact hpos.ne (by exact_mod_cast hrank)
  have hdigits : 0 < (shortest (nearestRank n 1)).digits := by
    rw [← Decimal.value_pos_iff, hvalue]
    exact_mod_cast hpos
  have hsame : (shortest (nearestRank n 1)).value = Decimal.value ⟨n, 0⟩ := by
    rw [hvalue, Decimal.value, zpow_zero, mul_one]
  rw [magnitudeText, if_neg hne, if_neg hfinite.ne, Decimal.text_eq_of_value_eq hdigits hsame,
    Decimal.text_natural hpos (hle.trans_lt (by norm_num))]

variable {digits : List Char}

theorem numeral_ofLiteral :
    numeral (ofLiteral digits) = String.ofList (magnitudeText (nearestRank (ofDigits digits) 1)) := by
  have hle : nearestRank (ofDigits digits) 1 ≤ infinityRank := by
    unfold nearestRank
    split
    · exact Nat.zero_le _
    · exact Nat.min_le_left _ _
  rw [numeral, numeralChars, ofLiteral, rank_ofRank false hle, isNegative_ofRank false hle,
    if_neg hle.not_gt, if_neg Bool.false_ne_true]

/-- A literal that is not too large is shown with its digits, without leading zeros. -/
theorem numeral_ofLiteral_of_le (hle : ofDigits digits ≤ 2 ^ 53) :
    numeral (ofLiteral digits) = String.ofList (toDigits (ofDigits digits)) ++ ".0" := by
  rw [numeral_ofLiteral, magnitudeText_nearestRank hle, String.ofList_append]

theorem numeral_ofLiteral_of_ge (hge : 2 ^ 1024 - 2 ^ 970 ≤ ofDigits digits) :
    numeral (ofLiteral digits) = "inf" := by
  rw [numeral_ofLiteral, nearestRank_eq_infinityRank hge]
  decide

end Text

end Reckoner.Number

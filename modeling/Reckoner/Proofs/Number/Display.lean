import Reckoner.Proofs.Number.Lettering
import Reckoner.Proofs.Number.Nearest
import Reckoner.Proofs.Number.Patterns
import Reckoner.Proofs.Number.Shortest
import Reckoner.Proofs.Number.Written

/-! What the text of a finite double tells. It reads back as a decimal that rounds to the double and
has as few significant digits as such a decimal can have; the power of ten is written only where
the double is small or large. -/
namespace Reckoner.Number

section Notation

variable {rank : Nat} {p : ℤ}

/-- Where no value below a power of ten is shown as one, the shortest decimal lies on the same side
of the power as the value. -/
theorem zpow_le_shortest_iff (hpos : 0 < rank)
    (hround : Between (10 ^ p) rank → 10 ^ p ≤ rankValue rank) :
    10 ^ p ≤ (shortest rank).value ↔ 10 ^ p ≤ rankValue rank := by
  obtain ⟨length, h⟩ := exists_found hpos
  obtain ⟨hlow, hhigh⟩ := h.value_bounds hpos
  have hvalue := rankValue_pos hpos
  constructor
  · intro hle
    by_contra hlt
    have hlog : Int.log 10 (rankValue rank) < p :=
      (Int.lt_zpow_iff_log_lt (by decide) hvalue).mp (by exact_mod_cast not_le.mp hlt)
    have htop : (10 : ℚ) ^ (Int.log 10 (rankValue rank) + 1) ≤ 10 ^ p :=
      zpow_le_zpow_right₀ (by norm_num) (by omega)
    have heq : (shortest rank).value = 10 ^ p := le_antisymm (hhigh.trans htop) hle
    exact hlt (hround (heq ▸ h.between))
  · intro hle
    have hlog : p ≤ Int.log 10 (rankValue rank) :=
      (Int.zpow_le_iff_le_log (by decide) hvalue).mp (by exact_mod_cast hle)
    exact (zpow_le_zpow_right₀ (by norm_num) hlog).trans hlow

theorem digits_shortest_pos (hpos : 0 < rank) : 0 < (shortest rank).digits := by
  obtain ⟨length, h⟩ := exists_found hpos
  exact (Nat.pow_pos (by decide)).trans_le (h.pow_le_digits hpos).1

theorem le_leading_shortest_iff (hpos : 0 < rank)
    (hround : Between (10 ^ p) rank → 10 ^ p ≤ rankValue rank) :
    p ≤ (shortest rank).leading ↔ 10 ^ p ≤ rankValue rank := by
  have hdigits := digits_shortest_pos hpos
  have hvalue := Decimal.value_pos_iff.mpr hdigits
  rw [Decimal.leading_eq_log hdigits, ← zpow_le_shortest_iff hpos hround,
    ← Int.zpow_le_iff_le_log (by decide) hvalue]
  norm_cast

/-- The double nearest to the power of ten from which on values are written out lies above it. -/
theorem rankValue_of_between_tenThousandth (hfinite : rank < infinityRank)
    (h : Between (10 ^ (-4 : ℤ)) rank) : 10 ^ (-4 : ℤ) ≤ rankValue rank := by
  have hpower : (10 : ℚ) ^ (-4 : ℤ) = (1 : ℕ) / (10000 : ℕ) := by norm_num
  have hmagnitude : Magnitude.ofRank (nearestRank 1 10000) = ⟨7378697629483821, -66⟩ := by
    decide +kernel
  rw [hpower] at h ⊢
  rw [h.eq_nearestRank (by decide) hfinite, rankValue, hmagnitude, Magnitude.value]
  norm_num

theorem rankValue_of_between_largestPlain (hfinite : rank < infinityRank)
    (h : Between (10 ^ (16 : ℤ)) rank) : 10 ^ (16 : ℤ) ≤ rankValue rank := by
  have hpower : (10 : ℚ) ^ (16 : ℤ) = (10 ^ 16 : ℕ) / (1 : ℕ) := by norm_num
  have hmagnitude : Magnitude.ofRank (nearestRank (10 ^ 16) 1) = ⟨5000000000000000, 1⟩ := by
    decide +kernel
  rw [hpower] at h ⊢
  rw [h.eq_nearestRank Nat.one_pos hfinite, rankValue, hmagnitude, Magnitude.value]
  norm_num

/-- The values that are written out. -/
def WrittenOut (rank : Nat) : Prop :=
  rank = 0 ∨ (1 / 10 ^ 4 ≤ rankValue rank ∧ rankValue rank < 10 ^ 16)

theorem writtenOut_iff_leading (hpos : 0 < rank) (hfinite : rank < infinityRank) :
    WrittenOut rank ↔ -4 ≤ (shortest rank).leading ∧ (shortest rank).leading < 16 := by
  have hlow := le_leading_shortest_iff hpos (rankValue_of_between_tenThousandth hfinite)
  have hhigh := le_leading_shortest_iff hpos (rankValue_of_between_largestPlain hfinite)
  have hpower : (1 / 10 ^ 4 : ℚ) = 10 ^ (-4 : ℤ) := by norm_num
  rw [WrittenOut, or_iff_right hpos.ne', hpower, hlow, ← not_le, ← not_le, hhigh]
  norm_cast

end Notation

section Magnitude

variable {rank : Nat} (hfinite : rank < infinityRank)

include hfinite

/-- The text of a magnitude reads back as the shortest decimals that round to it. -/
theorem readDecimal?_magnitudeText :
    ∃ d, readDecimal? (magnitudeText rank) = some d ∧ RoundsTo d.value rank ∧
      ∀ other : Decimal, RoundsTo other.value rank →
        d.significant.length ≤ other.significant.length := by
  unfold magnitudeText
  rcases Nat.eq_zero_or_pos rank with rfl | hpos
  · have hread : readDecimal? ['0', '.', '0'] = some ⟨0, -1⟩ := by decide
    have hvalue : Decimal.value ⟨0, -1⟩ = rankValue 0 := by simp [Decimal.value]
    refine ⟨_, hread, ?_, fun other _ => ?_⟩
    · rw [hvalue]
      exact roundsTo_rankValue hfinite
    · rw [Decimal.significant_of_digits_eq_zero rfl]
      exact Nat.zero_le _
  · obtain ⟨length, hfound⟩ := exists_found hpos
    obtain ⟨d, hread, hvalue⟩ := Decimal.readDecimal?_text (digits_shortest_pos hpos)
    rw [if_neg hpos.ne', if_neg hfinite.ne]
    refine ⟨d, hread, ?_, fun other hother => ?_⟩
    · rw [hvalue]
      exact (roundsTo_iff_between hfinite).mpr hfound.between
    · rw [Decimal.significant_eq_of_value_eq hvalue]
      exact length_significant_shortest_le hpos ((roundsTo_iff_between hfinite).mp hother)

theorem magnitudeText_form :
    (WrittenOut rank → IsPlain (magnitudeText rank)) ∧
      (¬WrittenOut rank → IsScientific (magnitudeText rank)) := by
  unfold magnitudeText
  rcases Nat.eq_zero_or_pos rank with rfl | hpos
  · refine ⟨fun _ => ⟨['0'], ['0'], by simp, by simp, ?_, rfl⟩, fun hnot => absurd (.inl rfl) hnot⟩
    simp [Text.isDigit]
  · obtain ⟨hne, hdigits, -⟩ := Decimal.value_eq_significant (digits_shortest_pos hpos)
    rw [if_neg hpos.ne', if_neg hfinite.ne, writtenOut_iff_leading hpos hfinite, Decimal.text]
    exact ⟨fun hplain => if_pos hplain ▸ isPlain_plain hne hdigits _,
      fun hnot => if_neg hnot ▸ isScientific_scientific hne hdigits _⟩

/-- A magnitude is written without a sign. -/
theorem exists_magnitudeText_eq_cons :
    ∃ c cs, magnitudeText rank = c :: cs ∧ Text.isDigit c = true := by
  obtain ⟨hplain, hscientific⟩ := magnitudeText_form hfinite
  by_cases h : WrittenOut rank
  · obtain ⟨whole, fraction, hne, -, hall, htext⟩ := hplain h
    obtain ⟨c, cs, rfl⟩ := List.exists_cons_of_ne_nil hne
    exact ⟨c, _, htext, hall c (by simp)⟩
  · obtain ⟨first, fraction, sign, exponent, hall, -, -, -, htext⟩ := hscientific h
    exact ⟨first, _, htext, hall first (by simp)⟩

end Magnitude

/-- A numeral with its sign, which zero has as well. -/
def readSigned? (cs : List Char) : Option (Bool × Decimal) :=
  let (negative, rest) := splitSign cs
  (readDecimal? rest).map (negative, ·)

/-- The sign of a finite double comes first and the text of its magnitude after it. -/
theorem splitSign_numeral {x : Float} (hfinite : rank x < infinityRank) :
    splitSign (numeral x).toList = (isNegative x, magnitudeText (rank x)) := by
  obtain ⟨c, cs, htext, hdigit⟩ := exists_magnitudeText_eq_cons hfinite
  rw [numeral, String.toList_ofList, numeralChars, if_neg hfinite.not_gt, htext]
  split
  · next hnegative => rw [hnegative]; rfl
  · next hnegative =>
    rw [Bool.eq_false_iff.mpr hnegative]
    unfold splitSign
    split
    · next heq =>
      cases heq
      cases hdigit
    · next heq =>
      cases heq
      cases hdigit
    · rfl

/-- What a text has to tell about a finite double. -/
structure Tells (text : String) (x : Float) : Prop where
  shortest : ∃ d, readSigned? text.toList = some (isNegative x, d) ∧ RoundsTo d.value (rank x) ∧
    ∀ other : Decimal, RoundsTo other.value (rank x) →
      d.significant.length ≤ other.significant.length
  number : text ∉ ["inf", "-inf", "nan", Outcome.errorText, ""]
  plain : WrittenOut (rank x) → IsPlain (splitSign text.toList).2
  scientific : ¬WrittenOut (rank x) → IsScientific (splitSign text.toList).2

theorem tells_numeral {x : Float} (hfinite : rank x < infinityRank) : Tells (numeral x) x := by
  have hsplit := splitSign_numeral hfinite
  obtain ⟨d, hread, hround, hshortest⟩ := readDecimal?_magnitudeText hfinite
  obtain ⟨hplain, hscientific⟩ := magnitudeText_form hfinite
  refine ⟨⟨d, ?_, hround, hshortest⟩, ?_, ?_, ?_⟩
  · simp only [readSigned?, hsplit, hread, Option.map_some]
  · intro hword
    obtain ⟨c, cs, htext, hdigit⟩ := exists_magnitudeText_eq_cons hfinite
    have hwords : ∀ s ∈ ["inf", "-inf", "nan", Outcome.errorText, ""],
        (splitSign s.toList).2.head?.any Text.isDigit = false := by
      decide
    have hnone := hwords _ hword
    rw [hsplit, htext, List.head?_cons, Option.any_some, hdigit] at hnone
    cases hnone
  · rw [hsplit]
    exact hplain
  · rw [hsplit]
    exact hscientific

theorem tells_numeral_ofBits {bits : UInt64} (hfinite : bits.toNat % 2 ^ 63 < infinityRank) :
    Tells (numeral (Float.ofBits bits)) (Float.ofBits bits) := by
  refine tells_numeral ?_
  rwa [rank, toBits_ofBits hfinite.le]

/-- A text tells about one double only. -/
theorem Tells.unique {text : String} {x y : Float} (hx : Tells text x) (hy : Tells text y) :
    x = y := by
  obtain ⟨d, hread, hround, -⟩ := hx.shortest
  obtain ⟨e, hreadOther, hroundOther, -⟩ := hy.shortest
  rw [hread, Option.some.injEq, Prod.mk.injEq] at hreadOther
  obtain ⟨hsign, rfl⟩ := hreadOther
  exact eq_of_rank_eq hsign (hround.unique hroundOther)

/-- The text of a finite double rounds to it, also in its sign, and no shorter one does. Doubles
with different bits have different texts. -/
theorem numeral_lossless {bits : UInt64} (hfinite : bits.toNat % 2 ^ 63 < infinityRank) :
    (Float.ofBits bits).toBits = bits ∧ Tells (numeral (Float.ofBits bits)) (Float.ofBits bits) ∧
      ∀ other : UInt64, other.toNat % 2 ^ 63 < infinityRank →
        numeral (Float.ofBits other) = numeral (Float.ofBits bits) → other = bits := by
  have hbits := toBits_ofBits hfinite.le
  have htells := tells_numeral_ofBits hfinite
  refine ⟨hbits, htells, fun other hother heq => ?_⟩
  have htellsOther := tells_numeral_ofBits hother
  rw [heq] at htellsOther
  rw [← hbits, ← htellsOther.unique htells, toBits_ofBits hother.le]

theorem numeral_lossless_least_negative :
    (0x8000000000000001 : UInt64).toNat % 2 ^ 63 < infinityRank ∧
      numeral (Float.ofBits 0x8000000000000001) = "-5e-324" ∧
      Tells "-5e-324" (Float.ofBits 0x8000000000000001) := by
  have hfinite : (0x8000000000000001 : UInt64).toNat % 2 ^ 63 < infinityRank := by decide
  have htext : numeral (Float.ofBits 0x8000000000000001) = "-5e-324" := by decide +kernel
  obtain ⟨-, htells, -⟩ := numeral_lossless hfinite
  rw [htext] at htells
  exact ⟨hfinite, htext, htells⟩

end Reckoner.Number

import Mathlib.Tactic.FieldSimp
import Reckoner.Number.Reading
import Reckoner.Proofs.Number.Rounding

/-! The rank that is computed for a quotient of natural numbers is the one that the quotient rounds
to: the step is chosen so that the quotient has 53 binary digits, and rounding the scaled quotient
to a natural number is rounding to the nearest rank. -/
namespace Reckoner.Number

theorem zpow_toNat_div (base : ℚ) (hbase : 0 < base) (exponent : ℤ) :
    base ^ exponent.toNat / base ^ (-exponent).toNat = base ^ exponent := by
  have hne := hbase.ne'
  rw [← zpow_natCast, ← zpow_natCast, ← zpow_sub₀ hne]
  congr 1
  omega

/-- The quotient in steps of a power of two. -/
theorem scaleDown_div (num den : Nat) (exponent : ℤ) :
    ((scaleDown num den exponent).1 : ℚ) / (scaleDown num den exponent).2 =
      num / den / 2 ^ exponent := by
  rw [← zpow_toNat_div 2 two_pos exponent, scaleDown]
  push_cast
  field_simp

theorem scaleDown_pos {num den : Nat} (h : 0 < den) (exponent : ℤ) :
    0 < (scaleDown num den exponent).2 := Nat.mul_pos h (Nat.two_pow_pos _)

section Step

variable {num den : Nat} (hnum : 0 < num) (hden : 0 < den)

include hnum hden in
/-- The binary logarithms tell the quotient up to a factor of two on either side. -/
theorem two_zpow_log2_sub :
    (2 : ℚ) ^ ((num.log2 : ℤ) - den.log2 - 1) < num / den ∧
      (num : ℚ) / den < 2 ^ ((num.log2 : ℤ) - den.log2 + 1) := by
  have hnumLow : (2 : ℚ) ^ num.log2 ≤ num := by exact_mod_cast Nat.log2_self_le hnum.ne'
  have hnumHigh : (num : ℚ) < 2 ^ (num.log2 + 1) := by exact_mod_cast Nat.lt_log2_self
  have hdenLow : (2 : ℚ) ^ den.log2 ≤ den := by exact_mod_cast Nat.log2_self_le hden.ne'
  have hdenHigh : (den : ℚ) < 2 ^ (den.log2 + 1) := by exact_mod_cast Nat.lt_log2_self
  have hdenPos : (0 : ℚ) < den := by exact_mod_cast hden
  have htwo : (2 : ℚ) ≠ 0 := two_ne_zero
  constructor
  · rw [lt_div_iff₀ hdenPos]
    calc (2 : ℚ) ^ ((num.log2 : ℤ) - den.log2 - 1) * den
        < 2 ^ ((num.log2 : ℤ) - den.log2 - 1) * 2 ^ (den.log2 + 1) :=
          mul_lt_mul_of_pos_left hdenHigh (two_zpow_pos _)
      _ = 2 ^ num.log2 := by
          rw [← zpow_natCast, ← zpow_natCast, ← zpow_add₀ htwo]
          congr 1
          push_cast
          ring
      _ ≤ num := hnumLow
  · rw [div_lt_iff₀ hdenPos]
    calc (num : ℚ) < 2 ^ (num.log2 + 1) := hnumHigh
      _ = 2 ^ ((num.log2 : ℤ) - den.log2 + 1) * 2 ^ den.log2 := by
          rw [← zpow_natCast, ← zpow_natCast, ← zpow_add₀ htwo]
          congr 1
          push_cast
          ring
      _ ≤ 2 ^ ((num.log2 : ℤ) - den.log2 + 1) * den :=
          mul_le_mul_of_nonneg_left hdenLow (two_zpow_pos _).le

include hden in
theorem le_scaleDown_iff (exponent : ℤ) :
    (scaleDown num den exponent).2 * 2 ^ 52 ≤ (scaleDown num den exponent).1 ↔
      2 ^ 52 * (2 : ℚ) ^ exponent ≤ num / den := by
  have hpos : (0 : ℚ) < (scaleDown num den exponent).2 := by exact_mod_cast scaleDown_pos hden _
  rw [← le_div_iff₀ (two_zpow_pos exponent), ← scaleDown_div, le_div_iff₀ hpos,
    mul_comm ((2 : ℚ) ^ 52)]
  exact_mod_cast Iff.rfl

include hnum hden in
/-- In steps of the chosen size the quotient has 53 binary digits, or fewer where the steps are the
smallest. -/
theorem stepExponent_spec :
    leastExponent ≤ stepExponent num den ∧ (num : ℚ) / den < 2 ^ 53 * 2 ^ stepExponent num den ∧
      (stepExponent num den = leastExponent ∨
        2 ^ 52 * 2 ^ stepExponent num den ≤ (num : ℚ) / den) := by
  obtain ⟨hlow, hhigh⟩ := two_zpow_log2_sub hnum hden
  have hpow (m : ℕ) (exponent : ℤ) : (2 : ℚ) ^ m * 2 ^ exponent = 2 ^ (m + exponent) := by
    rw [← zpow_natCast, ← zpow_add₀ two_ne_zero]
  unfold stepExponent
  dsimp only
  generalize hguess : (num.log2 : ℤ) - den.log2 - 52 = guess
  have hmax (exponent : ℤ) (hlt : (num : ℚ) / den < 2 ^ 53 * 2 ^ exponent)
      (hle : 2 ^ 52 * 2 ^ exponent ≤ (num : ℚ) / den) :
      leastExponent ≤ max leastExponent exponent ∧
        (num : ℚ) / den < 2 ^ 53 * 2 ^ max leastExponent exponent ∧
        (max leastExponent exponent = leastExponent ∨
          2 ^ 52 * 2 ^ max leastExponent exponent ≤ (num : ℚ) / den) := by
    refine ⟨le_max_left _ _, hlt.trans_le ?_, ?_⟩
    · exact mul_le_mul_of_nonneg_left (zpow_le_zpow_right₀ one_le_two (le_max_right _ _))
        (by norm_num)
    · rcases le_total exponent leastExponent with hsmall | hlarge
      · exact .inl (max_eq_left hsmall)
      · rw [max_eq_right hlarge]
        exact .inr hle
  split
  · next hmore =>
    refine hmax guess ?_ ((le_scaleDown_iff hden guess).mp hmore)
    have hexponent : ((53 : ℕ) : ℤ) + guess = num.log2 - den.log2 + 1 := by omega
    rwa [hpow, hexponent]
  · next hless =>
    rw [le_scaleDown_iff hden, not_le, hpow] at hless
    refine hmax (guess - 1) ?_ ?_
    · have hexponent : ((53 : ℕ) : ℤ) + (guess - 1) = (52 : ℕ) + guess := by omega
      rwa [hpow, hexponent]
    · have hexponent : ((52 : ℕ) : ℤ) + (guess - 1) = num.log2 - den.log2 - 1 := by omega
      rw [hpow, hexponent]
      exact hlow.le

end Step

/-- Rounding to a natural number stays within a half, and a tie goes to the even one. -/
theorem roundQuotient_spec (num : Nat) {den : Nat} (h : 0 < den) :
    (2 * roundQuotient num den - 1 ≤ 2 * ((num : ℚ) / den) ∧
      2 * ((num : ℚ) / den) ≤ 2 * roundQuotient num den + 1) ∧
    ((2 * roundQuotient num den - 1 = 2 * ((num : ℚ) / den) ∨
      2 * ((num : ℚ) / den) = 2 * roundQuotient num den + 1) → roundQuotient num den % 2 = 0) := by
  have hden : (0 : ℚ) < den := by exact_mod_cast h
  have hdiv : den * (num / den) + num % den = num := Nat.div_add_mod num den
  have hrest : num % den < den := Nat.mod_lt num h
  have hquotient : (num : ℚ) / den = (num / den : ℕ) + (num % den : ℕ) / den := by
    rw [eq_comm, add_div_eq_mul_add_div _ _ hden.ne', eq_comm]
    congr 1
    exact_mod_cast (by linarith : num = num / den * den + num % den)
  have hlt : ((num % den : ℕ) : ℚ) / den < 1 := by
    rw [div_lt_one hden]
    exact_mod_cast hrest
  have hnonneg : (0 : ℚ) ≤ ((num % den : ℕ) : ℚ) / den := by positivity
  have hless : 2 * (((num % den : ℕ) : ℚ) / den) < 1 ↔ 2 * (num % den) < den := by
    rw [← mul_div_assoc, div_lt_one hden]
    exact_mod_cast Iff.rfl
  have hequal : 2 * (((num % den : ℕ) : ℚ) / den) = 1 ↔ 2 * (num % den) = den := by
    rw [← mul_div_assoc, div_eq_one_iff_eq hden.ne']
    exact_mod_cast Iff.rfl
  rw [hquotient]
  unfold roundQuotient
  dsimp only
  generalize ((num % den : ℕ) : ℚ) / den = part at *
  generalize num / den = floor at *
  split
  · next hdown =>
    rcases hdown with hdown | ⟨htie, heven⟩
    · have hpart := hless.mpr hdown
      refine ⟨⟨by linarith, by linarith⟩, ?_⟩
      rintro (heq | heq)
      · linarith
      · linarith
    · have hpart := hequal.mpr htie
      exact ⟨⟨by linarith, by linarith⟩, fun _ => heven⟩
  · next hup =>
    have hge : 1 ≤ 2 * part := by
      by_contra hlt
      exact hup (.inl (hless.mp (not_le.mp hlt)))
    push_cast
    refine ⟨⟨by linarith, by linarith⟩, ?_⟩
    rintro (heq | heq)
    · have htie := hequal.mp (by linarith : 2 * part = 1)
      by_contra hodd
      exact hup (.inr ⟨htie, by omega⟩)
    · linarith

/-- A scaled quotient of at most 53 binary digits lies between the midpoints around the rank that
it is rounded to. -/
theorem between_binade {q : ℚ} {binade significand : Nat} (hle : significand ≤ 2 ^ 53)
    (hbinade : binade = 0 ∨ 2 ^ 52 ≤ significand)
    (hlow : binade = 0 ∨ 2 ^ 52 * 2 ^ (leastExponent + binade) ≤ q)
    (hhigh : q < 2 ^ 53 * 2 ^ (leastExponent + binade))
    (hbelow : (2 * significand - 1) * 2 ^ (leastExponent + binade) ≤ 2 * q)
    (habove : 2 * q ≤ (2 * significand + 1) * 2 ^ (leastExponent + binade))
    (heven : ((2 * significand - 1) * 2 ^ (leastExponent + binade) = 2 * q ∨
      2 * q = (2 * significand + 1) * 2 ^ (leastExponent + binade)) → significand % 2 = 0) :
    Between q (binade * 2 ^ 52 + significand) := by
  have hstep := two_zpow_pos (leastExponent + binade)
  have hvalue := rankValue_binade hle hbinade
  have hparity (h : significand % 2 = 0) : (binade * 2 ^ 52 + significand) % 2 = 0 := by omega
  constructor
  · intro lower hlower
    rw [hvalue]
    by_cases hfirst : binade = 0 ∨ 2 ^ 52 < significand
    · obtain ⟨smaller, rfl⟩ : ∃ n, significand = n + 1 := ⟨significand - 1, by omega⟩
      obtain rfl : lower = binade * 2 ^ 52 + smaller := by omega
      rw [rankValue_binade (by omega) (by omega)]
      push_cast at hbelow heven ⊢
      exact ⟨by linarith, fun heq => hparity (heven (.inl (by linarith)))⟩
    · -- At the first rank of a binade the neighbour below is nearer, and the quotient lies above.
      obtain ⟨hpos, hsmall⟩ := not_or.mp hfirst
      obtain rfl : significand = 2 ^ 52 := by omega
      have hq := hlow.resolve_left hpos
      have hlt : rankValue lower < rankValue (lower + 1) := rankValue_strictMono (by omega)
      rw [hlower, hvalue] at hlt
      push_cast at hlt ⊢
      exact ⟨by linarith, fun heq => by linarith⟩
  · by_cases hlast : significand < 2 ^ 53
    · rw [hvalue, add_assoc, rankValue_binade (by omega) (by omega)]
      push_cast
      exact ⟨by linarith, fun heq => hparity (heven (.inr (by linarith)))⟩
    · obtain rfl : significand = 2 ^ 53 := by omega
      have hlt : rankValue (binade * 2 ^ 52 + 2 ^ 53) <
          rankValue (binade * 2 ^ 52 + 2 ^ 53 + 1) := rankValue_strictMono (by omega)
      rw [hvalue] at hlt ⊢
      push_cast at hlt ⊢
      exact ⟨by linarith, fun heq => by linarith⟩

/-- Beyond the range of finite ranks the quotient is beyond the threshold. -/
theorem Between.roundsTo_min {q : ℚ} {rank : Nat} (h : Between q rank) :
    RoundsTo q (min infinityRank rank) := by
  rcases lt_or_ge rank infinityRank with hfinite | hinfinite
  · rw [min_eq_right hfinite.le]
    exact (roundsTo_iff_between hfinite).mpr h
  · rw [min_eq_left hinfinite, roundsTo_infinityRank_iff]
    have hpos : 0 < infinityRank := by decide
    obtain ⟨hbelow, -⟩ := h.below (rank - 1) (by omega)
    have hmid := rankValue_largest_add
    have hlower : rankValue (infinityRank - 1) ≤ rankValue (rank - 1) :=
      rankValue_strictMono.monotone (by omega)
    have hupper : rankValue infinityRank ≤ rankValue rank := rankValue_strictMono.monotone hinfinite
    linarith

/-- The quotient rounds to the rank that is computed for it. -/
theorem roundsTo_nearestRank {num den : Nat} (hden : 0 < den) :
    RoundsTo ((num : ℚ) / den) (nearestRank num den) := by
  rcases Nat.eq_zero_or_pos num with rfl | hnum
  · have hzero : RoundsTo (rankValue 0) 0 := roundsTo_rankValue (by decide)
    rw [rankValue_zero] at hzero
    simpa [nearestRank] using hzero
  obtain ⟨hleast, hhigh, hlow⟩ := stepExponent_spec hnum hden
  rw [nearestRank, if_neg hnum.ne']
  dsimp only
  obtain ⟨binade, hbinade⟩ : ∃ binade : ℕ, stepExponent num den = leastExponent + binade :=
    ⟨(stepExponent num den - leastExponent).toNat, by omega⟩
  have hindex : (stepExponent num den - leastExponent).toNat = binade := by omega
  rw [hindex, hbinade]
  rw [hbinade] at hlow hhigh
  obtain ⟨⟨hbelow, habove⟩, heven⟩ :=
    roundQuotient_spec (scaleDown num den (leastExponent + binade)).1
      (scaleDown_pos hden (leastExponent + binade))
  rw [scaleDown_div] at hbelow habove heven
  generalize roundQuotient (scaleDown num den (leastExponent + binade)).1
    (scaleDown num den (leastExponent + binade)).2 = significand at *
  generalize (num : ℚ) / den = q at *
  have hstep := two_zpow_pos (leastExponent + binade)
  have hdouble : 2 * (q / 2 ^ (leastExponent + (binade : ℤ))) =
      2 * q / 2 ^ (leastExponent + (binade : ℤ)) := (mul_div_assoc _ _ _).symm
  rw [hdouble] at hbelow habove heven
  rw [le_div_iff₀ hstep] at hbelow
  rw [div_le_iff₀ hstep] at habove
  rw [eq_div_iff hstep.ne', div_eq_iff hstep.ne'] at heven
  have hle : significand ≤ 2 ^ 53 := by
    by_contra hlt
    have hlt : (2 ^ 53 + 1 : ℚ) ≤ significand := by exact_mod_cast not_le.mp hlt
    nlinarith only [hlt, hbelow, hhigh, hstep]
  have hfull : binade = 0 ∨ 2 ^ 52 ≤ significand := by
    refine or_iff_not_imp_left.mpr fun hne => ?_
    have hq := hlow.resolve_left (by omega)
    by_contra hlt
    have hlt : (significand + 1 : ℚ) ≤ 2 ^ 52 := by exact_mod_cast not_le.mp hlt
    nlinarith only [hlt, habove, hq, hstep]
  exact (between_binade hle hfull (hlow.imp_left (by omega)) hhigh hbelow habove heven).roundsTo_min

theorem Between.eq_nearestRank {num den rank : Nat} (h : Between ((num : ℚ) / den) rank)
    (hden : 0 < den) (hfinite : rank < infinityRank) : rank = nearestRank num den :=
  ((roundsTo_iff_between hfinite).mpr h).unique (roundsTo_nearestRank hden)

end Reckoner.Number

import Mathlib.Algebra.Order.Field.Power
import Mathlib.Tactic.Linarith
import Mathlib.Tactic.NormNum
import Mathlib.Tactic.Positivity
import Mathlib.Tactic.Ring
import Reckoner.Number.Binary64

/-! The exact values of ranks. The step from a rank to the next one is the power of two that the
rank counts in, so that values ascend with their ranks. -/
namespace Reckoner.Number

def Magnitude.value (m : Magnitude) : ℚ := m.significand * 2 ^ m.exponent

/-- The value of a finite rank. The rank of infinity counts as the power of two that would follow
the largest finite value. -/
def rankValue (rank : Nat) : ℚ := (Magnitude.ofRank rank).value

theorem two_zpow_pos (exponent : ℤ) : (0 : ℚ) < 2 ^ exponent := by positivity

/-- Every rank counts the steps of a binade, in which ranks are significands. -/
theorem exists_binade (rank : Nat) :
    ∃ binade significand, rank = binade * 2 ^ 52 + significand ∧ significand < 2 ^ 53 ∧
      (binade = 0 ∨ 2 ^ 52 ≤ significand) := by
  by_cases h : rank < 2 ^ 52
  · exact ⟨0, rank, by omega, by omega, .inl rfl⟩
  · exact ⟨rank / 2 ^ 52 - 1, 2 ^ 52 + rank % 2 ^ 52, by omega, by omega, .inr (by omega)⟩

theorem Magnitude.ofRank_binade {binade significand : Nat} (hlt : significand < 2 ^ 53)
    (h : binade = 0 ∨ 2 ^ 52 ≤ significand) :
    Magnitude.ofRank (binade * 2 ^ 52 + significand) = ⟨significand, leastExponent + binade⟩ := by
  unfold Magnitude.ofRank
  split
  · obtain rfl : binade = 0 := by omega
    simp
  · next hge =>
    have hmod : 2 ^ 52 + (binade * 2 ^ 52 + significand) % 2 ^ 52 = significand := by omega
    have hdiv : (binade * 2 ^ 52 + significand) / 2 ^ 52 - 1 = binade := by omega
    rw [hmod, hdiv]

/-- Also the significand that is one too large counts right: its rank is the first of the next
binade. -/
theorem rankValue_binade {binade significand : Nat} (hle : significand ≤ 2 ^ 53)
    (h : binade = 0 ∨ 2 ^ 52 ≤ significand) :
    rankValue (binade * 2 ^ 52 + significand) = significand * 2 ^ (leastExponent + binade) := by
  rcases Nat.lt_or_eq_of_le hle with hlt | rfl
  · rw [rankValue, Magnitude.ofRank_binade hlt h, Magnitude.value]
  · have hnext : binade * 2 ^ 52 + 2 ^ 53 = (binade + 1) * 2 ^ 52 + 2 ^ 52 := by ring
    have hvalue : rankValue ((binade + 1) * 2 ^ 52 + 2 ^ 52) =
        (2 ^ 52 : ℕ) * 2 ^ (leastExponent + (binade + 1 : ℕ)) := by
      rw [rankValue, Magnitude.ofRank_binade (by norm_num) (.inr le_rfl), Magnitude.value]
    rw [hnext, hvalue]
    push_cast
    rw [← add_assoc, zpow_add_one₀ (two_ne_zero : (2 : ℚ) ≠ 0)]
    ring

theorem rankValue_succ (rank : Nat) :
    rankValue (rank + 1) = rankValue rank + 2 ^ (Magnitude.ofRank rank).exponent := by
  obtain ⟨binade, significand, rfl, hlt, h⟩ := exists_binade rank
  rw [add_assoc, rankValue_binade (by omega) (by omega), rankValue_binade hlt.le h,
    Magnitude.ofRank_binade hlt h]
  push_cast
  ring

theorem rankValue_strictMono : StrictMono rankValue := by
  refine strictMono_nat_of_lt_succ fun rank => ?_
  rw [rankValue_succ]
  exact lt_add_of_pos_right _ (two_zpow_pos _)

@[simp] theorem rankValue_zero : rankValue 0 = 0 := by
  simp [rankValue, Magnitude.ofRank, Magnitude.value]

theorem rankValue_pos {rank : Nat} (h : 0 < rank) : 0 < rankValue rank := by
  rw [← rankValue_zero]
  exact rankValue_strictMono h

/-- Ranks are even and odd as their significands are. -/
theorem Magnitude.significand_ofRank_mod_two (rank : Nat) :
    (Magnitude.ofRank rank).significand % 2 = rank % 2 := by
  obtain ⟨binade, significand, rfl, hlt, h⟩ := exists_binade rank
  rw [Magnitude.ofRank_binade hlt h]
  dsimp only
  omega

/-- From here on a value is nearer to infinity, or as near and infinity is even. -/
def overflowThreshold : ℚ := 2 ^ 1024 - 2 ^ 970

@[simp] theorem rankValue_infinityRank : rankValue infinityRank = 2 ^ 1024 := by
  have hrank : infinityRank = 2046 * 2 ^ 52 + 2 ^ 52 := rfl
  have hexponent : leastExponent + (2046 : ℕ) = (972 : ℕ) := rfl
  rw [hrank, rankValue_binade (by norm_num) (.inr le_rfl), hexponent, zpow_natCast, Nat.cast_pow,
    Nat.cast_ofNat, ← pow_add]

theorem rankValue_largest_add :
    rankValue (infinityRank - 1) + rankValue infinityRank = 2 * overflowThreshold := by
  have hrank : infinityRank - 1 = 2045 * 2 ^ 52 + (2 ^ 53 - 1) := rfl
  have hexponent : leastExponent + (2045 : ℕ) = (971 : ℕ) := rfl
  have hinfinity : (2 : ℚ) ^ 1024 = 2 ^ 53 * 2 ^ 971 := by rw [← pow_add]
  have hhalf : (2 : ℚ) ^ 971 = 2 * 2 ^ 970 := by rw [← pow_succ']
  have hlargest : ((2 ^ 53 - 1 : ℕ) : ℚ) = 2 ^ 53 - 1 := by norm_num
  rw [rankValue_infinityRank, hrank, rankValue_binade (by norm_num) (.inr (by norm_num)), hexponent,
    zpow_natCast, overflowThreshold, hinfinity, hhalf, hlargest]
  generalize (2 : ℚ) ^ 970 = quarter
  ring

end Reckoner.Number

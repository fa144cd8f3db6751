import Reckoner.Proofs.Number.Values

/-! Rounding to the nearest double, a tie going to the even significand. A value rounds to a finite
rank exactly when it lies between the midpoints to the neighbouring ranks; the midpoint above the
largest finite value is where overflow begins. -/
namespace Reckoner.Number

/-- A value that is not negative rounds to a rank: to that of infinity from the threshold on, and
else to the nearest finite one, of two the one with an even significand. -/
structure RoundsTo (q : ℚ) (rank : Nat) : Prop where
  infinite : overflowThreshold ≤ q → rank = infinityRank
  finite : q < overflowThreshold → rank < infinityRank
  nearest : q < overflowThreshold → ∀ other < infinityRank,
    |rankValue rank - q| ≤ |rankValue other - q|
  even : q < overflowThreshold → ∀ other < infinityRank, other ≠ rank →
    |rankValue rank - q| = |rankValue other - q| → (Magnitude.ofRank rank).significand % 2 = 0

/-- Between the midpoints to the neighbours. The midpoints themselves belong to even ranks. -/
structure Between (q : ℚ) (rank : Nat) : Prop where
  below : ∀ lower, lower + 1 = rank → rankValue lower + rankValue rank ≤ 2 * q ∧
    (rankValue lower + rankValue rank = 2 * q → rank % 2 = 0)
  above : 2 * q ≤ rankValue rank + rankValue (rank + 1) ∧
    (2 * q = rankValue rank + rankValue (rank + 1) → rank % 2 = 0)

section Distance

variable {a b q : ℚ}

theorem abs_sub_le_of_lt (h : a < b) : |b - q| ≤ |a - q| ↔ a + b ≤ 2 * q := by
  rw [← sq_le_sq]
  constructor <;> intro hle <;> nlinarith only [h, hle]

theorem abs_sub_ge_of_lt (h : a < b) : |a - q| ≤ |b - q| ↔ 2 * q ≤ a + b := by
  rw [← sq_le_sq]
  constructor <;> intro hle <;> nlinarith only [h, hle]

theorem abs_sub_eq_of_lt (h : a < b) : |b - q| = |a - q| ↔ a + b = 2 * q := by
  rw [le_antisymm_iff, abs_sub_le_of_lt h, abs_sub_ge_of_lt h, ← le_antisymm_iff]

end Distance

variable {q : ℚ} {rank : Nat}

theorem rankValue_add_le {lower : Nat} (h : lower < rank) :
    rankValue lower + rankValue (lower + 1) ≤ rankValue (rank - 1) + rankValue rank :=
  add_le_add (rankValue_strictMono.monotone (by omega)) (rankValue_strictMono.monotone (by omega))

/-- The largest finite rank is odd, so the midpoint above it is infinite. -/
theorem Between.lt_overflowThreshold (h : Between q rank) (hfinite : rank < infinityRank) :
    q < overflowThreshold := by
  obtain ⟨hle, htie⟩ := h.above
  have htop := rankValue_add_le hfinite
  rw [rankValue_largest_add] at htop
  rcases lt_or_eq_of_le hle with hlt | heq
  · linarith
  · have heven := htie heq
    have hlast : rank ≠ infinityRank - 1 := by
      rintro rfl
      exact absurd heven (by decide)
    have hnext : rankValue rank + rankValue (rank + 1) < 2 * overflowThreshold := by
      rw [← rankValue_largest_add]
      have hinfinity : infinityRank = infinityRank - 1 + 1 := rfl
      exact add_lt_add_of_lt_of_le (rankValue_strictMono (by omega))
        (rankValue_strictMono.monotone (by omega))
    linarith

theorem roundsTo_iff_between (hfinite : rank < infinityRank) :
    RoundsTo q rank ↔ Between q rank := by
  constructor
  · intro h
    have hq : q < overflowThreshold := by
      by_contra hge
      exact absurd (h.infinite (not_lt.mp hge)) hfinite.ne
    have heven {other : Nat} (hother : other < infinityRank) (hne : other ≠ rank)
        (heq : |rankValue rank - q| = |rankValue other - q|) : rank % 2 = 0 := by
      rw [← Magnitude.significand_ofRank_mod_two]
      exact h.even hq other hother hne heq
    constructor
    · rintro lower rfl
      have hlt : rankValue lower < rankValue (lower + 1) := rankValue_strictMono (by omega)
      rw [← abs_sub_le_of_lt hlt, ← abs_sub_eq_of_lt hlt]
      exact ⟨h.nearest hq lower (by omega), heven (by omega) (by omega)⟩
    · by_cases hnext : rank + 1 < infinityRank
      · have hlt : rankValue rank < rankValue (rank + 1) := rankValue_strictMono (by omega)
        rw [← abs_sub_ge_of_lt hlt, eq_comm, ← abs_sub_eq_of_lt hlt, eq_comm]
        exact ⟨h.nearest hq _ hnext, heven hnext (by omega)⟩
      · obtain rfl : rank = infinityRank - 1 := by omega
        have hmid := rankValue_largest_add
        have hinfinity : infinityRank - 1 + 1 = infinityRank := rfl
        rw [hinfinity, hmid]
        exact ⟨by linarith, fun heq => by linarith⟩
  · intro h
    have hq := h.lt_overflowThreshold hfinite
    have hbelow {other : Nat} (hlt : other < rank) :
        rankValue other + rankValue rank ≤ 2 * q ∧
          (rankValue other + rankValue rank = 2 * q → rank % 2 = 0) := by
      obtain ⟨hle, htie⟩ := h.below (rank - 1) (by omega)
      have hother : rankValue other ≤ rankValue (rank - 1) :=
        rankValue_strictMono.monotone (by omega)
      exact ⟨by linarith, fun heq => htie (by linarith)⟩
    have habove {other : Nat} (hlt : rank < other) :
        2 * q ≤ rankValue rank + rankValue other ∧
          (rankValue rank + rankValue other = 2 * q → rank % 2 = 0) := by
      obtain ⟨hle, htie⟩ := h.above
      have hother : rankValue (rank + 1) ≤ rankValue other :=
        rankValue_strictMono.monotone (by omega)
      exact ⟨by linarith, fun heq => htie (by linarith)⟩
    refine ⟨fun hge => absurd hq (not_lt.mpr hge), fun _ => hfinite, fun _ other _ => ?_,
      fun _ other _ hne heq => ?_⟩
    · rcases lt_trichotomy other rank with hlt | rfl | hlt
      · exact (abs_sub_le_of_lt (rankValue_strictMono hlt)).mpr (hbelow hlt).1
      · exact le_rfl
      · exact (abs_sub_ge_of_lt (rankValue_strictMono hlt)).mpr (habove hlt).1
    · rw [Magnitude.significand_ofRank_mod_two]
      rcases lt_or_gt_of_ne hne with hlt | hlt
      · exact (hbelow hlt).2 ((abs_sub_eq_of_lt (rankValue_strictMono hlt)).mp heq)
      · exact (habove hlt).2 ((abs_sub_eq_of_lt (rankValue_strictMono hlt)).mp heq.symm)

theorem roundsTo_infinityRank_iff : RoundsTo q infinityRank ↔ overflowThreshold ≤ q := by
  constructor
  · intro h
    by_contra hlt
    exact absurd (h.finite (not_le.mp hlt)) (lt_irrefl _)
  · intro hge
    have hnot : ¬q < overflowThreshold := not_lt.mpr hge
    exact ⟨fun _ => rfl, fun hlt => absurd hlt hnot, fun hlt => absurd hlt hnot,
      fun hlt => absurd hlt hnot⟩

/-- Two ranks that a value lies between the midpoints of would be neighbours, and both even. -/
theorem Between.le {other : Nat} (h : Between q rank) (hother : Between q other) :
    other ≤ rank := by
  by_contra hlt
  have hlt : rank < other := not_le.mp hlt
  obtain ⟨habove, hevenRank⟩ := h.above
  obtain ⟨hbelow, hevenOther⟩ := hother.below (other - 1) (by omega)
  have hmid := rankValue_add_le hlt
  have hrank := hevenRank (by linarith)
  have heven := hevenOther (by linarith)
  have hgap : rank + 1 < other := by omega
  have hfar : rankValue rank < rankValue (other - 1) := rankValue_strictMono (by omega)
  have hnear : rankValue (rank + 1) < rankValue other := rankValue_strictMono hgap
  linarith

theorem RoundsTo.unique {other : Nat} (h : RoundsTo q rank) (hother : RoundsTo q other) :
    rank = other := by
  by_cases hq : q < overflowThreshold
  · have hrank := (roundsTo_iff_between (h.finite hq)).mp h
    have hbetween := (roundsTo_iff_between (hother.finite hq)).mp hother
    exact le_antisymm (hbetween.le hrank) (hrank.le hbetween)
  · rw [h.infinite (not_lt.mp hq), hother.infinite (not_lt.mp hq)]

theorem between_rankValue (rank : Nat) : Between (rankValue rank) rank := by
  have hnext : rankValue rank < rankValue (rank + 1) := rankValue_strictMono (by omega)
  refine ⟨?_, by linarith, fun heq => by linarith⟩
  rintro lower rfl
  have hlower : rankValue lower < rankValue (lower + 1) := rankValue_strictMono (by omega)
  exact ⟨by linarith, fun heq => by linarith⟩

theorem roundsTo_rankValue (hfinite : rank < infinityRank) : RoundsTo (rankValue rank) rank :=
  (roundsTo_iff_between hfinite).mpr (between_rankValue rank)

theorem Between.convex {p r : ℚ} (hp : Between p rank) (hr : Between r rank) (hpq : p ≤ q)
    (hqr : q ≤ r) : Between q rank := by
  obtain ⟨habove, hevenAbove⟩ := hr.above
  refine ⟨fun lower hlower => ?_, by linarith, fun heq => hevenAbove (by linarith)⟩
  obtain ⟨hbelow, hevenBelow⟩ := hp.below lower hlower
  exact ⟨by linarith, fun heq => hevenBelow (by linarith)⟩

end Reckoner.Number

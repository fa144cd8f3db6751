import Reckoner.Number.Shortest
import Reckoner.Proofs.Number.Nearest

/-! Basins hold what rounds to their rank. A basin is an interval around the value of its rank, so a
multiple of a power of ten lies in it only if one of the two multiples around the value does. -/
namespace Reckoner.Number

namespace Basin

/-- What the multiples of a basin are counted in. -/
def unit (b : Basin) : ℚ := b.num / b.den

def AboveLower (b : Basin) (q : ℚ) : Prop :=
  b.lower * b.unit < q ∨ (b.closed = true ∧ b.lower * b.unit = q)

def BelowUpper (b : Basin) (q : ℚ) : Prop :=
  q < b.upper * b.unit ∨ (b.closed = true ∧ q = b.upper * b.unit)

def Contains (b : Basin) (q : ℚ) : Prop := b.AboveLower q ∧ b.BelowUpper q

/-- The ends lie on either side of the centre. -/
structure Proper (b : Basin) : Prop where
  num : 0 < b.num
  den : 0 < b.den
  lower : b.lower < b.centre
  upper : b.centre < b.upper

variable {b : Basin} {q r : ℚ}

theorem AboveLower.mono (h : b.AboveLower q) (hle : q ≤ r) : b.AboveLower r := by
  rcases hle.lt_or_eq with hlt | rfl
  · rcases h with hless | ⟨-, heq⟩
    · exact .inl (hless.trans hlt)
    · exact .inl (heq ▸ hlt)
  · exact h

theorem BelowUpper.mono (h : b.BelowUpper r) (hle : q ≤ r) : b.BelowUpper q := by
  rcases hle.lt_or_eq with hlt | rfl
  · rcases h with hless | ⟨-, heq⟩
    · exact .inl (hlt.trans hless)
    · exact .inl (heq ▸ hlt)
  · exact h

namespace Proper

variable (hb : b.Proper)

include hb

theorem unit_pos : 0 < b.unit := by
  have hnum : (0 : ℚ) < b.num := by exact_mod_cast hb.num
  have hden : (0 : ℚ) < b.den := by exact_mod_cast hb.den
  exact div_pos hnum hden

theorem aboveLower_centre : b.AboveLower (b.centre * b.unit) :=
  .inl (mul_lt_mul_of_pos_right (by exact_mod_cast hb.lower) hb.unit_pos)

theorem belowUpper_centre : b.BelowUpper (b.centre * b.unit) :=
  .inl (mul_lt_mul_of_pos_right (by exact_mod_cast hb.upper) hb.unit_pos)

/-- Multiples of the power of ten and of the unit are compared as natural numbers. -/
theorem scale (exponent : ℤ) (k x : Nat) :
    (k * (10 ^ exponent.toNat * b.den) < x * (10 ^ (-exponent).toNat * b.num) ↔
      (k : ℚ) * 10 ^ exponent < x * b.unit) ∧
    (x * (10 ^ (-exponent).toNat * b.num) < k * (10 ^ exponent.toNat * b.den) ↔
      x * b.unit < (k : ℚ) * 10 ^ exponent) := by
  have hden : (0 : ℚ) < b.den := by exact_mod_cast hb.den
  have hfactor : (0 : ℚ) < 10 ^ (-exponent).toNat * b.den := by positivity
  have hten : (10 : ℚ) ^ exponent * 10 ^ (-exponent).toNat = 10 ^ exponent.toNat := by
    rw [← zpow_toNat_div 10 (by norm_num), div_mul_cancel₀ _ (by positivity)]
  have hstep : ((k * (10 ^ exponent.toNat * b.den) : ℕ) : ℚ) =
      k * 10 ^ exponent * (10 ^ (-exponent).toNat * b.den) := by
    push_cast
    rw [← hten]
    ring
  have hunit : ((x * (10 ^ (-exponent).toNat * b.num) : ℕ) : ℚ) =
      x * b.unit * (10 ^ (-exponent).toNat * b.den) := by
    push_cast
    rw [unit]
    field_simp
  constructor
  · rw [← @Nat.cast_lt ℚ, hstep, hunit, mul_lt_mul_iff_left₀ hfactor]
  · rw [← @Nat.cast_lt ℚ, hstep, hunit, mul_lt_mul_iff_left₀ hfactor]

theorem scale_eq (exponent : ℤ) (k x : Nat) :
    x * (10 ^ (-exponent).toNat * b.num) = k * (10 ^ exponent.toNat * b.den) ↔
      x * b.unit = (k : ℚ) * 10 ^ exponent := by
  obtain ⟨hless, hgreater⟩ := hb.scale exponent k x
  rw [eq_iff_le_not_lt, eq_iff_le_not_lt, ← not_lt, ← not_lt, hless, hgreater]

/-- The test that a multiple is not below the basin. -/
theorem reachesBelow_iff (exponent : ℤ) (k : Nat) :
    (decide (b.lower * (10 ^ (-exponent).toNat * b.num) < k * (10 ^ exponent.toNat * b.den)) ||
      (b.closed && b.lower * (10 ^ (-exponent).toNat * b.num) ==
        k * (10 ^ exponent.toNat * b.den))) = true ↔ b.AboveLower (k * 10 ^ exponent) := by
  rw [Bool.or_eq_true, Bool.and_eq_true, decide_eq_true_eq, beq_iff_eq, hb.scale_eq,
    (hb.scale exponent k b.lower).2]
  rfl

/-- The test that a multiple is not above the basin. -/
theorem reachesAbove_iff (exponent : ℤ) (k : Nat) :
    (decide (k * (10 ^ exponent.toNat * b.den) < b.upper * (10 ^ (-exponent).toNat * b.num)) ||
      (b.closed && k * (10 ^ exponent.toNat * b.den) ==
        b.upper * (10 ^ (-exponent).toNat * b.num))) = true ↔ b.BelowUpper (k * 10 ^ exponent) := by
  have hend := (eq_comm.trans (hb.scale_eq exponent k b.upper)).trans eq_comm
  rw [Bool.or_eq_true, Bool.and_eq_true, decide_eq_true_eq, beq_iff_eq, hend,
    (hb.scale exponent k b.upper).1]
  rfl

/-- The multiple right below the centre, and the one above it. -/
theorem centre_bounds (exponent : ℤ) :
    let below := b.centre * (10 ^ (-exponent).toNat * b.num) / (10 ^ exponent.toNat * b.den)
    (below : ℚ) * 10 ^ exponent ≤ b.centre * b.unit ∧
      b.centre * b.unit < (below + 1 : ℕ) * 10 ^ exponent := by
  intro below
  have hstep : 0 < 10 ^ exponent.toNat * b.den := Nat.mul_pos (by positivity) hb.den
  constructor
  · rw [← not_lt, ← (hb.scale exponent below b.centre).2, not_lt]
    exact Nat.div_mul_le_self _ _
  · rw [← (hb.scale exponent (below + 1) b.centre).2]
    exact Nat.lt_mul_of_div_lt (Nat.lt_succ_self _) hstep

end Proper

section Multiples

variable {exponent : ℤ}

/-- A multiple that is found lies in the basin and is one of the two around the centre. -/
theorem of_nearestMultiple? (hb : b.Proper) {k : Nat} (h : b.nearestMultiple? exponent = some k) :
    b.Contains (k * 10 ^ exponent) ∧ ((k : ℚ) - 1) * 10 ^ exponent ≤ b.centre * b.unit ∧
      b.centre * b.unit < (k + 1) * 10 ^ exponent := by
  obtain ⟨hlow, hhigh⟩ := hb.centre_bounds exponent
  have hten : (0 : ℚ) < 10 ^ exponent := by positivity
  unfold nearestMultiple? at h
  dsimp only at h
  generalize b.centre * (10 ^ (-exponent).toNat * b.num) / (10 ^ exponent.toNat * b.den) = below at *
  have hbelow := hb.reachesBelow_iff exponent below
  have habove := hb.reachesAbove_iff exponent (below + 1)
  have hfirst (hreach : b.AboveLower (below * 10 ^ exponent)) :
      b.Contains (below * 10 ^ exponent) ∧
        ((below : ℚ) - 1) * 10 ^ exponent ≤ b.centre * b.unit ∧
        b.centre * b.unit < (below + 1) * 10 ^ exponent := by
    push_cast at hhigh
    exact ⟨⟨hreach, hb.belowUpper_centre.mono hlow⟩, by linarith, hhigh⟩
  have hsecond (hreach : b.BelowUpper ((below + 1 : ℕ) * 10 ^ exponent)) :
      b.Contains ((below + 1 : ℕ) * 10 ^ exponent) ∧
        (((below + 1 : ℕ) : ℚ) - 1) * 10 ^ exponent ≤ b.centre * b.unit ∧
        b.centre * b.unit < ((below + 1 : ℕ) + 1) * 10 ^ exponent := by
    refine ⟨⟨hb.aboveLower_centre.mono hhigh.le, hreach⟩, ?_, ?_⟩
    · push_cast
      linarith
    · push_cast at hhigh ⊢
      linarith
  split at h
  · next hboth =>
    rw [Bool.and_eq_true, hbelow, habove] at hboth
    cases h
    split
    · exact hfirst hboth.1
    · exact hsecond hboth.2
  split at h
  · next hreach =>
    cases h
    exact hfirst (hbelow.mp hreach)
  split at h
  · next hreach =>
    cases h
    exact hsecond (habove.mp hreach)
  · cases h

/-- If there is none, no multiple lies in the basin: one that does would be separated from the
centre by one of the two around it. -/
theorem not_contains_of_nearestMultiple? (hb : b.Proper) (h : b.nearestMultiple? exponent = none)
    (k : Nat) : ¬b.Contains (k * 10 ^ exponent) := by
  obtain ⟨hlow, hhigh⟩ := hb.centre_bounds exponent
  have hten : (0 : ℚ) < 10 ^ exponent := by positivity
  unfold nearestMultiple? at h
  dsimp only at h
  generalize b.centre * (10 ^ (-exponent).toNat * b.num) / (10 ^ exponent.toNat * b.den) = below at *
  have hbelow := hb.reachesBelow_iff exponent below
  have habove := hb.reachesAbove_iff exponent (below + 1)
  split at h
  · cases h
  split at h
  · cases h
  next hmissBelow =>
  split at h
  · cases h
  next hmissAbove =>
  rw [hbelow] at hmissBelow
  rw [habove] at hmissAbove
  intro hk
  by_cases hle : k ≤ below
  · have hmul : (k : ℚ) * 10 ^ exponent ≤ below * 10 ^ exponent :=
      mul_le_mul_of_nonneg_right (by exact_mod_cast hle) hten.le
    exact hmissBelow (hk.1.mono hmul)
  · have hmul : ((below + 1 : ℕ) : ℚ) * 10 ^ exponent ≤ k * 10 ^ exponent :=
      mul_le_mul_of_nonneg_right (by exact_mod_cast not_le.mp hle) hten.le
    exact hmissAbove (hk.2.mono hmul)

/-- A multiple that is the centre itself is the one that is found. -/
theorem nearestMultiple?_of_centre (hb : b.Proper) {n : Nat}
    (h : b.centre * b.unit = n * 10 ^ exponent) : b.nearestMultiple? exponent = some n := by
  have hstep : 0 < 10 ^ exponent.toNat * b.den := Nat.mul_pos (by positivity) hb.den
  have hcentre := (hb.scale_eq exponent n b.centre).mpr h
  have hdiv : b.centre * (10 ^ (-exponent).toNat * b.num) / (10 ^ exponent.toNat * b.den) = n := by
    rw [hcentre, Nat.mul_div_cancel n hstep]
  have hmod : b.centre * (10 ^ (-exponent).toNat * b.num) % (10 ^ exponent.toNat * b.den) = 0 := by
    rw [hcentre, Nat.mul_mod_left]
  have hreach := (hb.reachesBelow_iff exponent n).mpr (h ▸ hb.aboveLower_centre)
  unfold nearestMultiple?
  dsimp only
  rw [hdiv, hmod, hreach]
  simp only [Bool.true_and, if_true, Nat.mul_zero, hstep, true_or]
  split <;> rfl

end Multiples

end Basin

end Reckoner.Number

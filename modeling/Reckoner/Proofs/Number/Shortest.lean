import Reckoner.Proofs.Number.Basins
import Reckoner.Proofs.Number.Decimals

/-! The shortest decimal of a rank rounds to the rank, and no decimal with fewer significant digits
does. Lengths are tried from one digit on, and seventeen digits are always enough. -/
namespace Reckoner.Number

theorem findSome?_range_eq_some_iff {α : Type} {f : Nat → Option α} {n : Nat} {a : α} :
    (List.range n).findSome? f = some a ↔ ∃ i < n, f i = some a ∧ ∀ j < i, f j = none := by
  induction n with
  | zero => simp
  | succ n ih =>
    rw [List.range_succ, List.findSome?_append, Option.or_eq_some_iff, ih,
      List.findSome?_eq_none_iff, List.findSome?_singleton]
    constructor
    · rintro (⟨i, hi, hf, hbefore⟩ | ⟨hnone, hlast⟩)
      · exact ⟨i, by omega, hf, hbefore⟩
      · exact ⟨n, by omega, hlast, fun j hj => hnone j (List.mem_range.mpr hj)⟩
    · rintro ⟨i, hi, hf, hbefore⟩
      rcases Nat.lt_succ_iff_lt_or_eq.mp hi with hlt | rfl
      · exact .inl ⟨i, hlt, hf, hbefore⟩
      · exact .inr ⟨fun j hj => hbefore j (List.mem_range.mp hj), hf⟩

section Basin

variable {rank : Nat}

theorem Basin.proper_ofRank (hpos : 0 < rank) : (Basin.ofRank rank).Proper := by
  obtain ⟨binade, significand, rfl, hlt, h⟩ := exists_binade rank
  unfold ofRank
  rw [Magnitude.ofRank_binade hlt h]
  refine ⟨Nat.two_pow_pos _, Nat.two_pow_pos _, ?_, Nat.lt_add_of_pos_right (by decide)⟩
  dsimp only
  split <;> omega

theorem Basin.unit_ofRank (rank : Nat) :
    4 * (Basin.ofRank rank).unit = 2 ^ (Magnitude.ofRank rank).exponent := by
  have hunit : (Basin.ofRank rank).unit = 2 ^ ((Magnitude.ofRank rank).exponent - 2) := by
    rw [unit, ofRank]
    push_cast
    rw [← zpow_toNat_div 2 two_pos, neg_sub]
  rw [hunit, zpow_sub₀ two_ne_zero]
  norm_num
  ring

/-- The centre is the value of the rank, the ends are the midpoints to its neighbours. -/
theorem Basin.centre_ofRank (rank : Nat) :
    (Basin.ofRank rank).centre * (Basin.ofRank rank).unit = rankValue rank := by
  have hunit := unit_ofRank rank
  rw [rankValue, Magnitude.value, ← hunit]
  simp only [ofRank]
  push_cast
  ring

theorem Basin.upper_ofRank (rank : Nat) :
    2 * ((Basin.ofRank rank).upper * (Basin.ofRank rank).unit) =
      rankValue rank + rankValue (rank + 1) := by
  have hunit := unit_ofRank rank
  rw [rankValue_succ, ← hunit, ← centre_ofRank]
  simp only [ofRank]
  push_cast
  ring

theorem Basin.lower_ofRank {lower : Nat} (h : lower + 1 = rank) :
    2 * ((Basin.ofRank rank).lower * (Basin.ofRank rank).unit) =
      rankValue lower + rankValue rank := by
  obtain ⟨binade, significand, hrank, hlt, hbinade⟩ := exists_binade rank
  have hmagnitude : Magnitude.ofRank rank = ⟨significand, leastExponent + binade⟩ := by
    rw [hrank, Magnitude.ofRank_binade hlt hbinade]
  have hunit := unit_ofRank rank
  rw [hmagnitude] at hunit
  have hlower : (ofRank rank).lower =
      4 * significand - if significand = 2 ^ 52 ∧ 0 < binade then 1 else 2 := by
    rw [ofRank, hmagnitude]
    simp
  have hvalue : rankValue rank = significand * 2 ^ (leastExponent + binade) := by
    rw [rankValue, hmagnitude, Magnitude.value]
  rw [hlower, hvalue]
  split
  · -- The value is the first of its binade, the one below counts steps of half the size.
    next hnarrow =>
    obtain ⟨rfl, hpos⟩ := hnarrow
    obtain ⟨binade, rfl⟩ := Nat.exists_eq_add_one.mpr hpos
    have hprevious : lower = binade * 2 ^ 52 + (2 ^ 53 - 1) := by omega
    have hdouble : (2 : ℚ) ^ (leastExponent + (binade + 1 : ℕ)) =
        2 * 2 ^ (leastExponent + binade) := by
      push_cast
      rw [← add_assoc, zpow_add_one₀ two_ne_zero, mul_comm]
    rw [hprevious, rankValue_binade (by norm_num) (by norm_num)]
    rw [hdouble] at hunit ⊢
    push_cast
    linarith
  · next hnot =>
    have hpos : 0 < significand := by omega
    obtain ⟨smaller, rfl⟩ := Nat.exists_eq_add_one.mpr hpos
    have hprevious : lower = binade * 2 ^ 52 + smaller := by omega
    have hends : 4 * (smaller + 1) - 2 = 4 * smaller + 2 := by omega
    rw [hprevious, hends, rankValue_binade (by omega) (by omega), ← hunit]
    push_cast
    ring

theorem Basin.contains_ofRank_iff (hpos : 0 < rank) {q : ℚ} :
    (Basin.ofRank rank).Contains q ↔ Between q rank := by
  have hclosed : (Basin.ofRank rank).closed = true ↔ rank % 2 = 0 := by
    rw [ofRank, beq_iff_eq, Magnitude.significand_ofRank_mod_two]
  obtain ⟨lower, rfl⟩ := Nat.exists_eq_add_one.mpr hpos
  have hlower := lower_ofRank (rfl : lower + 1 = lower + 1)
  have hupper := upper_ofRank (lower + 1)
  rw [Contains, AboveLower, BelowUpper, hclosed]
  constructor
  · rintro ⟨hlow, hhigh⟩
    constructor
    · intro other hother
      obtain rfl : other = lower := by omega
      rw [← hlower]
      rcases hlow with hless | ⟨heven, heq⟩
      · exact ⟨by linarith, fun heq => by linarith⟩
      · exact ⟨by linarith, fun _ => heven⟩
    · rw [← hupper]
      rcases hhigh with hless | ⟨heven, heq⟩
      · exact ⟨by linarith, fun heq => by linarith⟩
      · exact ⟨by linarith, fun _ => heven⟩
  · rintro ⟨hbelow, habove, hevenAbove⟩
    obtain ⟨hlow, hevenBelow⟩ := hbelow lower rfl
    rw [← hlower] at hlow hevenBelow
    rw [← hupper] at habove hevenAbove
    constructor
    · rcases lt_or_eq_of_le hlow with hless | heq
      · exact .inl (by linarith)
      · exact .inr ⟨hevenBelow heq, by linarith⟩
    · rcases lt_or_eq_of_le habove with hless | heq
      · exact .inl (by linarith)
      · exact .inr ⟨hevenAbove heq, by linarith⟩

theorem Basin.lower_ofRank_eq (rank : Nat) :
    (Basin.ofRank rank).lower = 4 * (Magnitude.ofRank rank).significand - 2 ∨
      (Magnitude.ofRank rank).significand = 2 ^ 52 := by
  by_cases h : (Magnitude.ofRank rank).significand = 2 ^ 52
  · exact .inr h
  · refine .inl ?_
    simp only [ofRank, h, decide_false, Bool.false_and, Bool.false_eq_true, if_false]

theorem Magnitude.significand_lt (rank : Nat) : (Magnitude.ofRank rank).significand < 2 ^ 53 := by
  obtain ⟨binade, significand, rfl, hlt, h⟩ := exists_binade rank
  rw [Magnitude.ofRank_binade hlt h]
  exact hlt

theorem Magnitude.significand_pos (hpos : 0 < rank) : 0 < (Magnitude.ofRank rank).significand := by
  obtain ⟨binade, significand, rfl, hlt, h⟩ := exists_binade rank
  rw [Magnitude.ofRank_binade hlt h]
  dsimp only
  omega

/-- With seventeen digits the multiples lie so close together that one of the two around the value
is in the basin: the nearer one, or the upper one where the basin is narrow below. -/
theorem Basin.exists_nearestMultiple? (hpos : 0 < rank) {exponent : ℤ}
    (h : 10 ^ exponent * 10 ^ 16 ≤ rankValue rank) :
    ∃ k, (Basin.ofRank rank).nearestMultiple? exponent = some k := by
  by_contra hnone
  rw [← Option.ne_none_iff_exists', not_not] at hnone
  have hproper := proper_ofRank hpos
  have hmiss := not_contains_of_nearestMultiple? hproper hnone
  obtain ⟨hbelow, habove⟩ := hproper.centre_bounds exponent
  generalize (ofRank rank).centre * (10 ^ (-exponent).toNat * (ofRank rank).num) /
    (10 ^ exponent.toNat * (ofRank rank).den) = below at *
  have hcontainsBelow (hlt : (ofRank rank).lower * (ofRank rank).unit < below * 10 ^ exponent) :
      False := hmiss below ⟨.inl hlt, hproper.belowUpper_centre.mono hbelow⟩
  have hcontainsAbove
      (hlt : (below + 1 : ℕ) * 10 ^ exponent < (ofRank rank).upper * (ofRank rank).unit) :
      False := hmiss (below + 1) ⟨hproper.aboveLower_centre.mono habove.le, .inl hlt⟩
  have hunit := hproper.unit_pos
  have hupper : ((ofRank rank).upper : ℚ) = (ofRank rank).centre + 2 := by simp [ofRank]
  have hcentre : ((ofRank rank).centre : ℚ) = 4 * (Magnitude.ofRank rank).significand := by
    simp [ofRank]
  rw [← centre_ofRank] at h
  have hgapAbove := not_lt.mp hcontainsAbove
  rw [hupper] at hgapAbove
  push_cast at hgapAbove
  rcases lower_ofRank_eq rank with hlower | hnarrow
  · have hlowerCentre : ((ofRank rank).lower : ℚ) = (ofRank rank).centre - 2 := by
      have hge := Magnitude.significand_pos hpos
      rw [hlower, hcentre, Nat.cast_sub (by omega)]
      push_cast
      rfl
    have hgapBelow := not_lt.mp hcontainsBelow
    rw [hlowerCentre] at hgapBelow
    have hwide : 4 * (ofRank rank).unit ≤ 10 ^ exponent := by linarith
    have hsignificand : ((Magnitude.ofRank rank).significand : ℚ) ≤ 2 ^ 53 := by
      exact_mod_cast (Magnitude.significand_lt rank).le
    rw [hcentre] at h
    nlinarith only [h, hwide, hsignificand, hunit]
  · have hwide : 2 * (ofRank rank).unit ≤ 10 ^ exponent := by linarith
    rw [hcentre, hnarrow] at h
    push_cast at h
    linarith

end Basin

section Shortest

variable {rank : Nat}

/-- What is found: a multiple of a power of ten in the basin, next to the value or the value itself,
where no coarser power of ten has a multiple in the basin. -/
structure Found (rank length : Nat) (d : Decimal) : Prop where
  exponent : d.exponent = Int.log 10 (rankValue rank) - length
  between : Between d.value rank
  below : ((d.digits : ℚ) - 1) * 10 ^ d.exponent ≤ rankValue rank
  above : rankValue rank < (d.digits + 1) * 10 ^ d.exponent
  multiple : ∀ n : ℕ, rankValue rank = n * 10 ^ d.exponent → d.digits = n
  coarser : ∀ shorter < length, ∀ k : ℕ,
    ¬Between (k * 10 ^ (Int.log 10 (rankValue rank) - shorter)) rank

theorem exists_found (hpos : 0 < rank) : ∃ length, Found rank length (shortest rank) := by
  have hproper := Basin.proper_ofRank hpos
  have hvalue := rankValue_pos hpos
  have hleading : leadingExponent ((Basin.ofRank rank).centre * (Basin.ofRank rank).num)
      (Basin.ofRank rank).den = Int.log 10 (rankValue rank) := by
    have hcentre := Basin.centre_ofRank rank
    have hcentrePos : 0 < (Basin.ofRank rank).centre := Nat.zero_lt_of_lt hproper.lower
    rw [leadingExponent_eq_log (Nat.mul_pos hcentrePos hproper.num) hproper.den, ← hcentre,
      Basin.unit]
    push_cast
    rw [mul_div_assoc]
  let attempt (length : Nat) : Option Decimal :=
    ((Basin.ofRank rank).nearestMultiple? (Int.log 10 (rankValue rank) - length)).map
      (⟨·, Int.log 10 (rankValue rank) - length⟩)
  have hshortest : shortest rank =
      ((List.range 17).findSome? attempt).getD (Magnitude.ofRank rank).expansion := by
    rw [shortest, hleading]
  have hlast : ∃ d, attempt 16 = some d := by
    have hclose : (10 : ℚ) ^ (Int.log 10 (rankValue rank) - (16 : ℕ)) * 10 ^ 16 ≤
        rankValue rank := by
      rw [zpow_sub₀ (by norm_num), zpow_natCast, div_mul_cancel₀ _ (by norm_num)]
      exact_mod_cast Int.zpow_log_le_self (by decide) hvalue
    obtain ⟨k, hk⟩ := Basin.exists_nearestMultiple? hpos hclose
    exact ⟨_, congrArg (Option.map _) hk⟩
  obtain ⟨d, hd⟩ : ∃ d, (List.range 17).findSome? attempt = some d := by
    obtain ⟨last, hlast⟩ := hlast
    rw [← Option.ne_none_iff_exists', ne_eq, List.findSome?_eq_none_iff]
    intro hnone
    rw [hnone 16 (by simp)] at hlast
    cases hlast
  obtain ⟨length, -, hfound, hbefore⟩ := findSome?_range_eq_some_iff.mp hd
  obtain ⟨k, hk, rfl⟩ := Option.map_eq_some_iff.mp hfound
  obtain ⟨hcontains, hbelow, habove⟩ := Basin.of_nearestMultiple? hproper hk
  rw [Basin.centre_ofRank] at hbelow habove
  rw [hshortest, hd, Option.getD_some]
  refine ⟨length, rfl, (Basin.contains_ofRank_iff hpos).mp hcontains, hbelow, habove, ?_, ?_⟩
  · intro n hn
    have hcentre := (Basin.centre_ofRank rank).trans hn
    exact Option.some.inj (hk.symm.trans (Basin.nearestMultiple?_of_centre hproper hcentre))
  · intro shorter hshorter k' hbetween
    have hnone := Option.map_eq_none_iff.mp (hbefore shorter hshorter)
    exact Basin.not_contains_of_nearestMultiple? hproper hnone k'
      ((Basin.contains_ofRank_iff hpos).mpr hbetween)

namespace Found

variable {length : Nat} {d other : Decimal} (h : Found rank length d)

include h

/-- The digits count steps of which the leading power of ten has as many as its zeros say. -/
theorem pow_le_digits (hpos : 0 < rank) :
    10 ^ length ≤ d.digits ∧ d.digits ≤ 10 ^ (length + 1) := by
  have hvalue := rankValue_pos hpos
  have hstep := ten_zpow_pos d.exponent
  have hlow := Int.zpow_log_le_self (by decide : 1 < 10) hvalue
  have hhigh := Int.lt_zpow_succ_log_self (by decide : 1 < 10) (rankValue rank)
  have hshift (n : ℕ) : (10 : ℚ) ^ n * 10 ^ d.exponent = 10 ^ (n + d.exponent) := by
    rw [zpow_add₀ (by norm_num), zpow_natCast]
  have hlowest : (length : ℤ) + d.exponent = Int.log 10 (rankValue rank) := by
    rw [h.exponent]
    ring
  have hhighest : ((length + 1 : ℕ) : ℤ) + d.exponent = Int.log 10 (rankValue rank) + 1 := by
    rw [← hlowest]
    push_cast
    ring
  rw [Nat.cast_ofNat, ← hlowest, ← hshift] at hlow
  rw [Nat.cast_ofNat, ← hhighest, ← hshift] at hhigh
  have hless : (10 ^ length : ℚ) < d.digits + 1 :=
    lt_of_mul_lt_mul_right (hlow.trans_lt h.above) hstep.le
  have hmore : (d.digits : ℚ) - 1 < 10 ^ (length + 1) :=
    lt_of_mul_lt_mul_right (h.below.trans_lt hhigh) hstep.le
  constructor
  · exact Nat.lt_succ_iff.mp (by exact_mod_cast hless)
  · exact Nat.lt_succ_iff.mp (by exact_mod_cast (by linarith : (d.digits : ℚ) < 10 ^ (length + 1) + 1))

/-- The decimal lies in the decade of the value, or is the power of ten after it. -/
theorem value_bounds (hpos : 0 < rank) :
    10 ^ Int.log 10 (rankValue rank) ≤ d.value ∧
      d.value ≤ 10 ^ (Int.log 10 (rankValue rank) + 1) := by
  obtain ⟨hlow, hhigh⟩ := h.pow_le_digits hpos
  have hstep := ten_zpow_pos d.exponent
  have hten : (10 : ℚ) ≠ 0 := by norm_num
  have hlowest : Int.log 10 (rankValue rank) = length + d.exponent := by
    rw [h.exponent]
    ring
  have hhighest : Int.log 10 (rankValue rank) + 1 = (length + 1 : ℕ) + d.exponent := by
    rw [hlowest]
    push_cast
    ring
  rw [hhighest, hlowest, zpow_add₀ hten, zpow_add₀ hten, zpow_natCast, zpow_natCast, Decimal.value]
  exact ⟨mul_le_mul_of_nonneg_right (by exact_mod_cast hlow) hstep.le,
    mul_le_mul_of_nonneg_right (by exact_mod_cast hhigh) hstep.le⟩

theorem length_significant_le (hpos : 0 < rank) : d.significant.length ≤ length + 1 := by
  rw [Decimal.length_significant_le_iff]
  obtain ⟨-, hhigh⟩ := h.pow_le_digits hpos
  rcases lt_or_eq_of_le hhigh with hlt | heq
  · exact ⟨d.digits, d.exponent, hlt, rfl⟩
  · refine ⟨1, (length + 1 : ℕ) + d.exponent, Nat.one_lt_pow (by omega) (by decide), ?_⟩
    rw [Decimal.value, heq, zpow_add₀ (by norm_num), zpow_natCast]
    push_cast
    ring

/-- A decimal with as few digits as were tried in vain would be a multiple of the power of ten that
was tried then, or lie below the decade of the value. -/
theorem length_lt_significant (hpos : 0 < rank) (hother : Between other.value rank) :
    length < other.significant.length := by
  by_contra hle
  obtain ⟨n, exponent, hn, hvalue⟩ := Decimal.length_significant_le_iff.mp le_rfl
  generalize other.significant.length = count at *
  have hrank := rankValue_pos hpos
  have hotherPos : 0 < other.value := by
    obtain ⟨hbelow, -⟩ := hother.below (rank - 1) (by omega)
    have hlower : rankValue 0 ≤ rankValue (rank - 1) := rankValue_strictMono.monotone (by omega)
    rw [rankValue_zero] at hlower
    linarith
  have hcount : 0 < count := by
    refine Nat.pos_of_ne_zero ?_
    rintro rfl
    obtain rfl : n = 0 := by omega
    rw [hvalue] at hotherPos
    simp at hotherPos
  by_cases hfine : Int.log 10 (rankValue rank) - (count - 1 : ℕ) ≤ exponent
  · obtain ⟨shift, rfl⟩ : ∃ shift : ℕ,
        exponent = shift + (Int.log 10 (rankValue rank) - (count - 1 : ℕ)) :=
      ⟨(exponent - (Int.log 10 (rankValue rank) - (count - 1 : ℕ))).toNat, by omega⟩
    refine h.coarser (count - 1) (by omega) (n * 10 ^ shift) ?_
    rw [hvalue, zpow_add₀ (by norm_num), zpow_natCast] at hother
    push_cast
    rwa [mul_assoc]
  · have hsmall : other.value ≤ 10 ^ Int.log 10 (rankValue rank) := by
      have hn : (n : ℚ) ≤ 10 ^ count := by exact_mod_cast hn.le
      calc other.value = n * 10 ^ exponent := hvalue
        _ ≤ 10 ^ count * 10 ^ exponent := mul_le_mul_of_nonneg_right hn (ten_zpow_pos _).le
        _ = 10 ^ (count + exponent) := by rw [zpow_add₀ (by norm_num), zpow_natCast]
        _ ≤ 10 ^ Int.log 10 (rankValue rank) :=
            zpow_le_zpow_right₀ (by norm_num) (by omega)
    refine h.coarser 0 (by omega) 1 ?_
    rw [Nat.cast_one, one_mul, Nat.cast_zero, sub_zero]
    exact hother.convex (between_rankValue rank) hsmall
      (by exact_mod_cast Int.zpow_log_le_self (by decide) hrank)

end Found

/-- No decimal that rounds to the rank has fewer significant digits. -/
theorem length_significant_shortest_le (hpos : 0 < rank) {other : Decimal}
    (hother : Between other.value rank) :
    (shortest rank).significant.length ≤ other.significant.length := by
  obtain ⟨length, h⟩ := exists_found hpos
  exact (h.length_significant_le hpos).trans (h.length_lt_significant hpos hother)

end Shortest

end Reckoner.Number

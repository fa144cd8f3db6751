import Mathlib
import Reckoner.Number.Binary64

/-! Doubles and their bit patterns. Finite doubles and the infinities have one pattern each, made of
a sign and a rank, so a double is determined by these two and every combination of them occurs. -/
namespace Reckoner.Number

open Float.Model in
/-- Only what is not a number has further patterns that stand for it. -/
theorem valid_of_le_infinityRank {bits : UInt64} (h : bits.toNat % 2 ^ 63 ≤ infinityRank) :
    Format.binary64.Valid bits.toBitVec := by
  constructor
  intro hexponent hmantissa
  have hfield : bits.toNat / 2 ^ 52 % 2 ^ 11 = 2 ^ 11 - 1 := by
    have hnat := congrArg BitVec.toNat hexponent
    rw [UnpackedFloat.unpackExponent_def] at hnat
    simp at hnat
    rwa [Nat.shiftRight_eq_div_pow] at hnat
  have hrest : bits.toNat % 2 ^ 52 ≠ 0 := by
    intro hzero
    refine hmantissa (BitVec.eq_of_toNat_eq ?_)
    rw [UnpackedFloat.unpackMantissa_def]
    simpa using hzero
  unfold infinityRank at h
  omega

theorem toBits_ofBits {bits : UInt64} (h : bits.toNat % 2 ^ 63 ≤ infinityRank) :
    (Float.ofBits bits).toBits = bits :=
  UInt64.toBitVec_inj.mp
    (Float.Model.UnpackedFloat.pack_unpack_of_valid (valid_of_le_infinityRank h))

section OfRank

variable (negative : Bool) {r : Nat} (h : r ≤ infinityRank)

include h

theorem toNat_toBits_ofRank :
    (ofRank negative r).toBits.toNat = if negative then 2 ^ 63 + r else r := by
  have hinfinity : infinityRank < 2 ^ 63 := by decide
  have hnat : (UInt64.ofNat (if negative then 2 ^ 63 + r else r)).toNat =
      if negative then 2 ^ 63 + r else r := by
    rw [UInt64.toNat_ofNat', Nat.mod_eq_of_lt]
    split <;> omega
  have hbits : (UInt64.ofNat (if negative then 2 ^ 63 + r else r)).toNat % 2 ^ 63 ≤
      infinityRank := by
    rw [hnat]
    split <;> omega
  rw [ofRank, toBits_ofBits hbits, hnat]

@[simp] theorem rank_ofRank : rank (ofRank negative r) = r := by
  have hinfinity : infinityRank < 2 ^ 63 := by decide
  rw [rank, toNat_toBits_ofRank negative h]
  split <;> omega

@[simp] theorem isNegative_ofRank : isNegative (ofRank negative r) = negative := by
  have hinfinity : infinityRank < 2 ^ 63 := by decide
  rw [isNegative, toNat_toBits_ofRank negative h]
  cases negative
  · exact decide_eq_false (by rw [if_neg Bool.false_ne_true]; omega)
  · exact decide_eq_true (by rw [if_pos rfl]; omega)

end OfRank

theorem toNat_toBits (x : Float) :
    x.toBits.toNat = if isNegative x then 2 ^ 63 + rank x else rank x := by
  have hlt := x.toBits.toNat_lt
  simp only [isNegative, rank, decide_eq_true_eq]
  split <;> omega

theorem eq_of_rank_eq {x y : Float} (hsign : isNegative x = isNegative y)
    (hrank : rank x = rank y) : x = y := by
  refine Float.toBits_inj.mp (UInt64.toNat_inj.mp ?_)
  rw [toNat_toBits, toNat_toBits, hsign, hrank]

end Reckoner.Number

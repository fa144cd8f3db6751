/-! Double precision numbers as exact values: the rank of a magnitude, the multiple of a power of
two that it stands for, and the rank nearest to a quotient of natural numbers. -/
namespace Reckoner.Number

namespace CorePower

-- Powers of natural numbers are those of the core library, also where monoids are at hand.
attribute [scoped instance (high)] instPowNat

end CorePower

open scoped CorePower

/-- The bits of a double without its sign. Magnitudes are ordered as their ranks, zero has rank 0.
-/
def rank (x : Float) : Nat := x.toBits.toNat % 2 ^ (63 : Nat)

def isNegative (x : Float) : Bool := 2 ^ (63 : Nat) ≤ x.toBits.toNat

/-- Finite magnitudes have smaller ranks than infinity, the ranks above it are not numbers. -/
def infinityRank : Nat := 0x7FF * 2 ^ (52 : Nat)

def ofRank (negative : Bool) (rank : Nat) : Float :=
  Float.ofBits (UInt64.ofNat (if negative then 2 ^ (63 : Nat) + rank else rank))

structure Magnitude where
  significand : Nat
  exponent : Int
  deriving DecidableEq, Repr

/-- The exponent of the smallest magnitudes, those below and in the first binade. -/
def leastExponent : Int := -1074

/-- The magnitude of a finite rank. Each further binade doubles the step between neighbours. -/
def Magnitude.ofRank (rank : Nat) : Magnitude :=
  if rank < 2 ^ (52 : Nat) then ⟨rank, leastExponent⟩
  else ⟨2 ^ (52 : Nat) + rank % 2 ^ (52 : Nat), leastExponent + (rank / 2 ^ (52 : Nat) - 1 : Nat)⟩

/-- The quotient rounded to a natural number, a tie to the even one. -/
def roundQuotient (num den : Nat) : Nat :=
  let floor := num / den
  let rest := num % den
  if 2 * rest < den ∨ (2 * rest = den ∧ floor % 2 = 0) then floor else floor + 1

def scaleDown (num den : Nat) (exponent : Int) : Nat × Nat :=
  (num * 2 ^ (-exponent).toNat, den * 2 ^ exponent.toNat)

/-- The exponent of the step between the doubles around a positive quotient: it leaves 53 binary
digits before the point unless the quotient lies below the first binade. -/
def stepExponent (num den : Nat) : Int :=
  let guess : Int := num.log2 - den.log2 - 52
  let scaled := scaleDown num den guess
  max leastExponent (if scaled.2 * 2 ^ (52 : Nat) ≤ scaled.1 then guess else guess - 1)

/-- The rank of the double nearest to a quotient, a tie going to the even rank. From half a step
beyond the largest finite double on it is infinity. -/
def nearestRank (num den : Nat) : Nat :=
  if num = 0 then 0
  else
    let exponent := stepExponent num den
    let scaled := scaleDown num den exponent
    min infinityRank
      ((exponent - leastExponent).toNat * 2 ^ (52 : Nat) + roundQuotient scaled.1 scaled.2)

end Reckoner.Number

import Reckoner.Number.Binary64
import Reckoner.Number.Digits

/-! The shortest decimal that rounds to a double and, among those of that length, the nearest one.
-/
namespace Reckoner.Number

open scoped CorePower

structure Decimal where
  digits : Nat
  exponent : Int
  deriving DecidableEq, Repr

/-- The reals that round to one magnitude, as multiples of the fraction `num / den`. The ends
belong to it exactly when it is closed. -/
structure Basin where
  lower : Nat
  centre : Nat
  upper : Nat
  num : Nat
  den : Nat
  closed : Bool

/-- A basin reaches half a step to either side, but only a quarter below a power of two, where the
steps become smaller. Ties go to even significands, so those own their ends. -/
def Basin.ofRank (rank : Nat) : Basin :=
  let m := Magnitude.ofRank rank
  let narrow := m.significand = 2 ^ (52 : Nat) && leastExponent < m.exponent
  { lower := 4 * m.significand - (if narrow then 1 else 2)
    centre := 4 * m.significand
    upper := 4 * m.significand + 2
    num := 2 ^ (m.exponent - 2).toNat
    den := 2 ^ (2 - m.exponent).toNat
    closed := m.significand % 2 == 0 }

def leadingExponent (num den : Nat) : Int :=
  if den ≤ num then digitCount (num / den) - 1 else -digitCount ((den - 1) / num)

/-- The multiple of `10 ^ exponent` in a basin that is nearest to its centre, a tie going to the
even multiple. If any multiple lies in the basin, so does one of the two around the centre. -/
def Basin.nearestMultiple? (b : Basin) (exponent : Int) : Option Nat :=
  let step := 10 ^ exponent.toNat * b.den
  let unit := 10 ^ (-exponent).toNat * b.num
  let below := b.centre * unit / step
  let rest := b.centre * unit % step
  let reachesBelow := b.lower * unit < below * step || (b.closed && b.lower * unit == below * step)
  let reachesAbove :=
    (below + 1) * step < b.upper * unit || (b.closed && (below + 1) * step == b.upper * unit)
  if reachesBelow && reachesAbove then
    some (if 2 * rest < step ∨ (2 * rest = step ∧ below % 2 = 0) then below else below + 1)
  else if reachesBelow then some below
  else if reachesAbove then some (below + 1)
  else none

def Magnitude.expansion (m : Magnitude) : Decimal :=
  if 0 ≤ m.exponent then ⟨m.significand * 2 ^ m.exponent.toNat, 0⟩
  else ⟨m.significand * 5 ^ (-m.exponent).toNat, m.exponent⟩

/-- The shortest decimal of a positive finite rank. Seventeen digits are always enough. -/
def shortest (rank : Nat) : Decimal :=
  let b := Basin.ofRank rank
  let leading := leadingExponent (b.centre * b.num) b.den
  let attempt (length : Nat) : Option Decimal :=
    let exponent := leading - length
    (b.nearestMultiple? exponent).map (⟨·, exponent⟩)
  ((List.range 17).findSome? attempt).getD (Magnitude.ofRank rank).expansion

end Reckoner.Number

import Reckoner.Number.Shortest
import Reckoner.Text.Blank

/-! Doubles read from decimal texts, each the nearest to the number that the text denotes. -/
namespace Reckoner.Number

open scoped CorePower

def ofLiteral (digits : List Char) : Float :=
  ofRank false (nearestRank (ofDigits digits) 1)

/-- The rank nearest to a decimal. Numerals far outside the range of doubles are settled by the
place of their leading digit, before any power of ten is formed. -/
def Decimal.nearestRank (d : Decimal) : Nat :=
  let places := d.exponent + digitCount d.digits
  if d.digits = 0 ∨ places < -330 then 0
  else if 310 < places then infinityRank
  else Number.nearestRank (d.digits * 10 ^ d.exponent.toNat) (10 ^ (-d.exponent).toNat)

private def unsigned? (digits : List Char) : Option Nat :=
  if digits.isEmpty || !digits.all Text.isDigit then none else some (ofDigits digits)

def splitSign : List Char → Bool × List Char
  | '-' :: rest => (true, rest)
  | '+' :: rest => (false, rest)
  | rest => (false, rest)

def readExponent? : List Char → Option Int
  | [] => some 0
  | mark :: rest =>
    if mark = 'e' || mark = 'E' then
      let (negative, digits) := splitSign rest
      (unsigned? digits).map fun n => if negative then -(n : Int) else n
    else none

theorem readExponent?_sign {sign : Char} {digits : List Char} (hsign : sign = '-' ∨ sign = '+')
    (hne : digits ≠ []) (hdigits : ∀ c ∈ digits, Text.isDigit c = true) :
    readExponent? ('e' :: sign :: digits) =
      some (if sign = '-' then -(ofDigits digits : Int) else ofDigits digits) := by
  have hread : unsigned? digits = some (ofDigits digits) := by
    have hall : digits.all Text.isDigit = true := List.all_eq_true.mpr hdigits
    simp [unsigned?, hne, hall]
  obtain rfl | rfl := hsign <;> simp [readExponent?, splitSign, hread]

/-- Digits with or without a point, at least one on either side of it, and perhaps an exponent. -/
def readDecimal? (cs : List Char) : Option Decimal :=
  let whole := cs.takeWhile Text.isDigit
  let rest := cs.dropWhile Text.isDigit
  let (fraction, rest) :=
    match rest with
    | '.' :: rest => (rest.takeWhile Text.isDigit, rest.dropWhile Text.isDigit)
    | rest => ([], rest)
  if whole.isEmpty && fraction.isEmpty then none
  else (readExponent? rest).map fun exponent =>
    ⟨ofDigits (whole ++ fraction), exponent - fraction.length⟩

/-- A signed numeral, or one of the words for infinity and for what is not a number. -/
def readDouble? (cs : List Char) : Option Float :=
  let (negative, rest) := splitSign cs
  let word := String.ofList (rest.map Char.toLower)
  if word = "inf" ∨ word = "infinity" then some (ofRank negative infinityRank)
  else if word = "nan" then some (ofRank negative (infinityRank + 2 ^ (51 : Nat)))
  else (readDecimal? rest).map fun d => ofRank negative d.nearestRank

def dropUnderscores? (cs : List Char) : Option (List Char) :=
  let rec hasPair : List Char → Bool
    | '_' :: '_' :: _ => true
    | _ :: rest => hasPair rest
    | [] => false
  if cs.head? = some '_' ∨ cs.getLast? = some '_' ∨ hasPair cs then none
  else some (cs.filter (· ≠ '_'))

def trim (cs : List Char) : List Char :=
  ((cs.dropWhile Text.isWhiteSpace).reverse.dropWhile Text.isWhiteSpace).reverse

/-- Reads a text with white space around it, or else one with underscores between its digits. -/
def ofText? (s : String) : Option Float :=
  match readDouble? (trim s.toList) with
  | some x => some x
  | none => (dropUnderscores? s.toList).bind readDouble?

end Reckoner.Number

import Reckoner.Number.Shortest

/-! The text of a double: its shortest decimal, written out between 0.0001 and 10 ^ 16 and with a
power of ten elsewhere. -/
namespace Reckoner.Number

/-- Written out: a point after the digit of weight one, zeros up to it on either side, and always a
digit after it. -/
def plain (digits : List Char) (leading : Int) : List Char :=
  if 0 ≤ leading then
    let whole := leading.toNat + 1
    let fraction := digits.drop whole
    digits.take whole ++ List.replicate (whole - digits.length) '0' ++
      '.' :: (if fraction.isEmpty then ['0'] else fraction)
  else '0' :: '.' :: List.replicate ((-leading).toNat - 1) '0' ++ digits

/-- One digit before the point, none after it if there is no further one, and an exponent with its
sign and at least two digits. -/
def scientific (digits : List Char) (leading : Int) : List Char :=
  let exponent := toDigits leading.natAbs
  digits.take 1 ++ (if digits.length ≤ 1 then [] else '.' :: digits.drop 1) ++
    'e' :: (if leading < 0 then '-' else '+') ::
      List.replicate (2 - exponent.length) '0' ++ exponent

/-- The digits of a decimal from the first to the last that is not zero. -/
def Decimal.significant (d : Decimal) : List Char :=
  ((toDigits d.digits).reverse.dropWhile (· == '0')).reverse

def Decimal.leading (d : Decimal) : Int := d.exponent + (toDigits d.digits).length - 1

def Decimal.text (d : Decimal) : List Char :=
  if -4 ≤ d.leading ∧ d.leading < 16 then plain d.significant d.leading
  else scientific d.significant d.leading

def magnitudeText (rank : Nat) : List Char :=
  if rank = 0 then ['0', '.', '0']
  else if rank = infinityRank then ['i', 'n', 'f']
  else (shortest rank).text

/-- What is not a number has no sign; zero has one. -/
def numeralChars (x : Float) : List Char :=
  if infinityRank < rank x then ['n', 'a', 'n']
  else if isNegative x then '-' :: magnitudeText (rank x)
  else magnitudeText (rank x)

def numeral (x : Float) : String := String.ofList (numeralChars x)

end Reckoner.Number

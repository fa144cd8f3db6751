import Reckoner.Text.Digit

/-! Natural numbers and the runs of decimal digits that denote them. -/
namespace Reckoner.Number

/-- The number a run of digits denotes; leading zeros do not count. -/
def ofDigits (digits : List Char) : Nat :=
  digits.foldl (fun n c => 10 * n + (c.toNat - 48)) 0

def toDigits (n : Nat) : List Char := Nat.toDigits 10 n

/-- How many digits a number has; none for zero. -/
def digitCount (n : Nat) : Nat := if n = 0 then 0 else (toDigits n).length

theorem isDigit_of_mem_toDigits {n : Nat} {c : Char} (h : c ∈ toDigits n) :
    Text.isDigit c = true := by
  have hdigit : c.isDigit = true := Nat.isDigit_of_mem_toDigits (by decide) (by decide) h
  simpa [Char.isDigit, Text.isDigit, UInt32.le_iff_toNat_le] using hdigit

end Reckoner.Number

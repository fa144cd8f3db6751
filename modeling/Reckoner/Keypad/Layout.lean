import Reckoner.Text.Blank

/-! The buttons of the keypad. -/
namespace Reckoner.Keypad

def clear : Char := 'C'

def equals : Char := '='

def rows : List (List Char) :=
  [['7', '8', '9', '/'], ['4', '5', '6', '*'], ['1', '2', '3', '-'], [clear, '0', equals, '+']]

/-- All labels: parentheses are understood although the rows do not show them. -/
def labels : List Char := rows.flatten ++ ['(', ')']

/-- A key is a label or a blank, which is no press. -/
def isKey (c : Char) : Bool := Text.isBlank c || labels.contains c

end Reckoner.Keypad

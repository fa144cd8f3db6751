import Reckoner.Number.Reading

/-! Values that are handed in from outside, by the names of the fields they are meant for. What can
be complained of, and in which words, is laid down by the validation package that forms are checked
with; the calculator adds its refusals. -/
namespace Reckoner.Form

inductive Value where
  | null
  | boolean (b : Bool)
  | integer (n : Int)
  | real (x : Float)
  | text (s : String)
  | compound

/-- What the calculator itself refuses, beyond the types of single fields. -/
inductive Refusal where
  | unknownButtons (labels : List Char)
  | unknownLevel (name : String)
  | notExactlyOne
  deriving DecidableEq, Repr

def Refusal.text : Refusal → String
  | unknownButtons labels =>
    "Unknown buttons: " ++ " ".intercalate (labels.map String.singleton)
  | unknownLevel name => "Unknown log level: " ++ name
  | notExactlyOne => "Provide either button keys or --expression, not both"

inductive Complaint where
  | missing
  | notText
  | notNumber
  | unreadableNumber
  | notConstant (expected : Bool)
  | notErrorKind
  | frozen
  | refused (refusal : Refusal)
  deriving DecidableEq, Repr

/-- Codes and messages are those of the validation package; only the text of a refusal is the
calculator's own. -/
def Complaint.code : Complaint → String
  | missing => "missing"
  | notText => "string_type"
  | notNumber => "float_type"
  | unreadableNumber => "float_parsing"
  | notConstant _ => "literal_error"
  | notErrorKind => "enum"
  | frozen => "frozen_instance"
  | refused _ => "value_error"

def Complaint.message : Complaint → String
  | missing => "Field required"
  | notText => "Input should be a valid string"
  | notNumber => "Input should be a valid number"
  | unreadableNumber => "Input should be a valid number, unable to parse string as a number"
  | notConstant true => "Input should be True"
  | notConstant false => "Input should be False"
  | notErrorKind =>
    "Input should be 'DivisionByZero', 'UnbalancedParentheses', 'MalformedExpression' or " ++
      "'InvalidCharacter'"
  | frozen => "Instance is frozen"
  | refused refusal => "Value error, " ++ refusal.text

structure Defect where
  field? : Option String
  complaint : Complaint
  deriving DecidableEq, Repr

end Reckoner.Form

namespace Reckoner

/-- The values by field name. Of two values for one field the first counts. -/
abbrev Form := List (String × Form.Value)

abbrev Checked (α : Type) := Except (List Form.Defect) α

end Reckoner

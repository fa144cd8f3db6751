import Reckoner.Expression.Machine
import Reckoner.Number.Numeral

/-! What an evaluation reports: the value of the expression, or the kind of its fault with a
description. -/
namespace Reckoner

structure Success where
  expression : String
  value : Float

structure Failure where
  expression : String
  kind : ErrorKind
  detail : String
  deriving DecidableEq, Repr

inductive Outcome where
  | success (s : Success)
  | failure (f : Failure)

namespace Outcome

/-- The text shown for every failure. -/
def errorText : String := "Error"

def text : Outcome → String
  | success s => Number.numeral s.value
  | failure _ => errorText

def ofExpression (expression : String) : Outcome :=
  match compute expression with
  | .ok value => success ⟨expression, value⟩
  | .error fault => failure ⟨expression, fault.kind, fault.detail⟩

end Outcome

end Reckoner

import Reckoner.Expression.Operator
import Reckoner.Number.Digits

/-! Why an expression has no value: the causes, their kinds, and the error that is reported. -/
namespace Reckoner

inductive ErrorKind where
  | divisionByZero
  | unbalancedParentheses
  | malformedExpression
  | invalidCharacter
  deriving DecidableEq, Repr

namespace ErrorKind

def all : List ErrorKind :=
  [divisionByZero, unbalancedParentheses, malformedExpression, invalidCharacter]

def name : ErrorKind → String
  | divisionByZero => "DivisionByZero"
  | unbalancedParentheses => "UnbalancedParentheses"
  | malformedExpression => "MalformedExpression"
  | invalidCharacter => "InvalidCharacter"

def heading : ErrorKind → String
  | divisionByZero => "DIVISION_BY_ZERO"
  | unbalancedParentheses => "UNBALANCED_PARENTHESES"
  | malformedExpression => "MALFORMED_EXPRESSION"
  | invalidCharacter => "INVALID_CHARACTER"

def named? (s : String) : Option ErrorKind := all.find? (·.name = s)

@[simp] theorem named?_name (kind : ErrorKind) : named? kind.name = some kind := by
  cases kind <;> decide

end ErrorKind

structure UnknownKind where
  name : String
  deriving DecidableEq, Repr

def UnknownKind.message (e : UnknownKind) : String :=
  Text.quote e.name ++ " is not a valid ErrorKind"

def ErrorKind.named (s : String) : Except UnknownKind ErrorKind :=
  match named? s with
  | some kind => .ok kind
  | none => .error ⟨s⟩

structure EvaluationError where
  kind : ErrorKind
  expression : String
  detail : String
  position : Option Int
  deriving DecidableEq, Repr

def EvaluationError.message (e : EvaluationError) : String := e.kind.name ++ ": " ++ e.detail

/-- What can be wrong with an expression. Positions count characters from zero. -/
inductive Fault where
  | divisionByZero
  | closingWithoutOpening
  | openingNeverClosed
  | missingOperand (symbol : String)
  | empty
  | operandsLeft
  | strayCharacter (c : Char) (position : Nat)
  deriving DecidableEq, Repr

namespace Fault

def kind : Fault → ErrorKind
  | divisionByZero => .divisionByZero
  | closingWithoutOpening | openingNeverClosed => .unbalancedParentheses
  | missingOperand _ | empty | operandsLeft => .malformedExpression
  | strayCharacter _ _ => .invalidCharacter

def detail : Fault → String
  | divisionByZero => "Cannot divide by zero"
  | closingWithoutOpening => "Closing parenthesis without a matching '('"
  | openingNeverClosed => "Opening parenthesis is never closed"
  | missingOperand symbol => "Operator " ++ Text.quote symbol ++ " is missing an operand"
  | empty => "Empty expression"
  | operandsLeft => "Operands left without an operator"
  | strayCharacter c position =>
    "Unexpected character " ++ Text.quote (String.singleton c) ++ " at position " ++
      String.ofList (Number.toDigits position)

def position? : Fault → Option Nat
  | strayCharacter _ position => some position
  | _ => none

def error (fault : Fault) (expression : String) : EvaluationError where
  kind := fault.kind
  expression := expression
  detail := fault.detail
  position := fault.position?.map Int.ofNat

theorem isSome_position?_iff (fault : Fault) :
    fault.position?.isSome = true ↔ fault.kind = .invalidCharacter := by
  cases fault <;> simp [position?, kind]

end Fault

end Reckoner

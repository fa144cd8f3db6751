import Reckoner.Log.Event

/-! Results with the events on the way to them, and evaluation as it is logged. -/
namespace Reckoner.Log

/-- A result together with the events on the way to it, the earliest first. -/
structure Logged (α : Type) where
  result : α
  events : List Event

def evaluate (expression : String) : Logged Outcome :=
  match compute expression with
  | .ok value =>
    ⟨.success ⟨expression, value⟩, [.evaluating expression, .evaluated expression value]⟩
  | .error fault =>
    ⟨.failure ⟨expression, fault.kind, fault.detail⟩,
      [.evaluating expression, .rejected expression fault]⟩

@[simp] theorem result_evaluate (expression : String) :
    (evaluate expression).result = .ofExpression expression := by
  simp only [evaluate, Outcome.ofExpression]
  cases compute expression <;> rfl

end Reckoner.Log

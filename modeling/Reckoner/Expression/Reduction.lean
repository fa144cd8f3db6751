import Reckoner.Expression.Fault

/-! Applying an operator to the two topmost values of a stack. Stacks are lists with the top first.
-/
namespace Reckoner

/-- The right operand lies on top. Nothing is taken from a stack of fewer than two values. -/
def Operator.reduce (op : Operator) : List Float → Except Fault (List Float)
  | b :: a :: rest =>
    match op.apply a b with
    | some value => .ok (value :: rest)
    | none => .error .divisionByZero
  | _ => .error (.missingOperand (String.singleton op.symbol))

inductive ReductionFailure where
  | fault (fault : Fault)
  | unknownOperator (e : UnknownOperator)
  deriving DecidableEq, Repr

structure Reduction where
  values : List Float
  failure? : Option ReductionFailure

/-- Reduces by the operator that a symbol names. The operands are taken off before the symbol is
looked up and stay off when the reduction fails; a stack that is too short stays as it is, whatever
the symbol. -/
def Reduction.bySymbol (symbol : String) : List Float → Reduction
  | b :: a :: rest =>
    match Operator.named symbol with
    | .error e => ⟨rest, some (.unknownOperator e)⟩
    | .ok op =>
      match op.apply a b with
      | some value => ⟨value :: rest, none⟩
      | none => ⟨rest, some (.fault .divisionByZero)⟩
  | values => ⟨values, some (.fault (.missingOperand symbol))⟩

/-- Reductions by several symbols in turn, going on after failures. -/
def Reduction.trace (values : List Float) : List String → List Reduction
  | [] => []
  | symbol :: rest =>
    let r := bySymbol symbol values
    r :: trace r.values rest

theorem Operator.reduce_eq_bySymbol (op : Operator) (values : List Float) :
    op.reduce values =
      match Reduction.bySymbol (String.singleton op.symbol) values with
      | ⟨values, none⟩ => .ok values
      | ⟨_, some (.fault fault)⟩ => .error fault
      | ⟨_, some (.unknownOperator e)⟩ => .error (.missingOperand e.symbol) := by
  have named : Operator.named (String.singleton op.symbol) = .ok op := by
    cases op <;> rfl
  rcases values with _ | ⟨b, _ | ⟨a, rest⟩⟩
  · rfl
  · rfl
  · simp only [reduce, Reduction.bySymbol, named]
    cases op.apply a b <;> rfl

end Reckoner

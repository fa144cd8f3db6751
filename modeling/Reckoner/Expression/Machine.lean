import Reckoner.Expression.Reduction
import Reckoner.Expression.Token
import Reckoner.Number.Reading

/-! The evaluator: one pass over the tokens with a stack of values and a stack of waiting operators.
An operator waits until one that does not bind more tightly, the end of its group, or the end of the
expression makes it act. -/
namespace Reckoner

inductive Waiting where
  | opening
  | operator (op : Operator)
  deriving DecidableEq, Repr

/-- Both stacks have their top first. -/
structure Machine where
  values : List Float
  waiting : List Waiting

namespace Machine

def start : Machine := ⟨[], []⟩

/-- Applies the waiting operators that act before an incoming one. -/
def settle (incoming : Operator) (values : List Float) : List Waiting → Except Fault Machine
  | .operator op :: rest =>
    if op.actsBefore incoming then do
      let values ← op.reduce values
      settle incoming values rest
    else .ok ⟨values, .operator op :: rest⟩
  | waiting => .ok ⟨values, waiting⟩

/-- Applies the operators of the innermost group and removes its parenthesis. -/
def closeGroup (values : List Float) : List Waiting → Except Fault Machine
  | [] => .error .closingWithoutOpening
  | .opening :: rest => .ok ⟨values, rest⟩
  | .operator op :: rest => do
    let values ← op.reduce values
    closeGroup values rest

def drain (values : List Float) : List Waiting → Except Fault (List Float)
  | [] => .ok values
  | .opening :: _ => .error .openingNeverClosed
  | .operator op :: rest => do
    let values ← op.reduce values
    drain values rest

def step (m : Machine) : Token → Except Fault Machine
  | .number digits => .ok { m with values := Number.ofLiteral digits :: m.values }
  | .opening => .ok { m with waiting := .opening :: m.waiting }
  | .closing => closeGroup m.values m.waiting
  | .operator op => do
    let settled ← settle op m.values m.waiting
    return { settled with waiting := .operator op :: settled.waiting }

def run (m : Machine) : List Token → Except Fault Machine
  | [] => .ok m
  | t :: rest => do
    let next ← m.step t
    next.run rest

theorem run_append (m : Machine) (ts us : List Token) :
    m.run (ts ++ us) = (m.run ts).bind fun next => next.run us := by
  induction ts generalizing m with
  | nil => rfl
  | cons t rest ih =>
    simp only [List.cons_append, run]
    cases h : m.step t with
    | error fault => rfl
    | ok next => exact ih next

/-- At the end of an expression no group is open and, once all operators have acted, exactly one
value is left. -/
def finish (m : Machine) : Except Fault Float :=
  if m.waiting.contains .opening then .error .openingNeverClosed
  else do
    match ← drain m.values m.waiting with
    | [value] => .ok value
    | [] => .error .empty
    | _ => .error .operandsLeft

end Machine

namespace Scan

/-- The machine after the last token. A stray character is reported only if no token before it
fails. -/
def machine (s : Scan) : Except Fault Machine := do
  let m ← Machine.start.run s.tokens
  match s.stray? with
  | some (c, position) => .error (.strayCharacter c position)
  | none => .ok m

def value (s : Scan) : Except Fault Float := do
  let m ← s.machine
  m.finish

end Scan

def compute (expression : String) : Except Fault Float := (Scan.ofString expression).value

end Reckoner

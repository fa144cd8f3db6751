import Reckoner.Text.Quoted

/-! The four operators: their symbols, their precedence and what they compute. -/
namespace Reckoner

inductive Operator where
  | add
  | subtract
  | multiply
  | divide
  deriving DecidableEq, Repr

namespace Operator

def all : List Operator := [add, subtract, multiply, divide]

def symbol : Operator → Char
  | add => '+'
  | subtract => '-'
  | multiply => '*'
  | divide => '/'

def ofChar? (c : Char) : Option Operator := all.find? (·.symbol = c)

def ofSymbol? (s : String) : Option Operator :=
  match s.toList with
  | [c] => ofChar? c
  | _ => none

@[simp] theorem ofChar?_symbol (op : Operator) : ofChar? op.symbol = some op := by
  cases op <;> rfl

theorem symbol_of_ofChar? {c : Char} {op : Operator} (h : ofChar? c = some op) :
    op.symbol = c := by
  simpa using List.find?_some h

def precedence : Operator → Nat
  | add => 1
  | subtract => 1
  | multiply => 2
  | divide => 2

/-- A waiting operator acts before an incoming one unless the incoming one binds more tightly. -/
def actsBefore (waiting incoming : Operator) : Bool := incoming.precedence ≤ waiting.precedence

/-- Only a division can fail: the divisor must not be equal to zero. -/
def apply (op : Operator) (a b : Float) : Option Float :=
  match op with
  | add => some (a + b)
  | subtract => some (a - b)
  | multiply => some (a * b)
  | divide => if b == 0.0 then none else some (a / b)

end Operator

structure UnknownOperator where
  symbol : String
  deriving DecidableEq, Repr

def UnknownOperator.message (e : UnknownOperator) : String := Text.quote e.symbol

def Operator.named (s : String) : Except UnknownOperator Operator :=
  match ofSymbol? s with
  | some op => .ok op
  | none => .error ⟨s⟩

/-- Whether the top of an operator stack acts before an incoming symbol. Parentheses never do, nor
does an empty text or the empty group; the incoming symbol is looked up before the top. -/
def Operator.topActsBefore (top incoming : String) : Except UnknownOperator Bool :=
  if top ∈ ["", "(", ")", "()"] then .ok false
  else do
    let incoming ← named incoming
    let waiting ← named top
    return waiting.actsBefore incoming

end Reckoner

import Mathlib.Data.List.Chain
import Reckoner.Expression.Machine
import Reckoner.Proofs.Expression.Spelling

/-! The infix grammar: an expression is a sum of terms, a term is a product of factors, and a factor
is a literal or an expression in parentheses. Sums and products group to the left. -/
namespace Reckoner

structure Literal where
  digits : List Char
  nonempty : digits ≠ []
  isDigit : ∀ c ∈ digits, Text.isDigit c = true

mutual
inductive Expr where
  | term (t : Term)
  | add (l : Expr) (r : Term)
  | subtract (l : Expr) (r : Term)
inductive Term where
  | factor (f : Factor)
  | multiply (l : Term) (r : Factor)
  | divide (l : Term) (r : Factor)
inductive Factor where
  | literal (n : Literal)
  | group (e : Expr)
end

mutual
def Expr.tokens : Expr → List Token
  | .term t => t.tokens
  | .add l r => l.tokens ++ .operator .add :: r.tokens
  | .subtract l r => l.tokens ++ .operator .subtract :: r.tokens
def Term.tokens : Term → List Token
  | .factor f => f.tokens
  | .multiply l r => l.tokens ++ .operator .multiply :: r.tokens
  | .divide l r => l.tokens ++ .operator .divide :: r.tokens
def Factor.tokens : Factor → List Token
  | .literal n => [.number n.digits]
  | .group e => .opening :: (e.tokens ++ [.closing])
end

mutual
/-- The value of an expression, none if a divisor is equal to zero. -/
def Expr.value? : Expr → Option Float
  | .term t => t.value?
  | .add l r => do return (← l.value?) + (← r.value?)
  | .subtract l r => do return (← l.value?) - (← r.value?)
def Term.value? : Term → Option Float
  | .factor f => f.value?
  | .multiply l r => do return (← l.value?) * (← r.value?)
  | .divide l r => do
    let a ← l.value?
    let b ← r.value?
    if b == 0.0 then none else some (a / b)
def Factor.value? : Factor → Option Float
  | .literal n => some (Number.ofLiteral n.digits)
  | .group e => e.value?
end

/-- The text of an expression with the given blanks around its tokens. -/
def Expr.spelling (e : Expr) (gap : Nat → Gap) : String := String.ofList (Token.spell gap e.tokens)

def Derivable (ts : List Token) : Prop := ∃ e : Expr, e.tokens = ts

namespace Token

def startsOperand : Token → Bool
  | number _ | opening => true
  | operator _ | closing => false

def endsOperand : Token → Bool
  | number _ | closing => true
  | operator _ | opening => false

/-- No operand follows another one without an operator between them. -/
def Apart (ts : List Token) : Prop :=
  ts.IsChain fun t u => ¬(t.endsOperand = true ∧ u.startsOperand = true)

/-- The features that the tokens of expressions, terms and factors share. -/
structure Phrase (ts : List Token) : Prop where
  proper : ∀ t ∈ ts, t.Proper
  apart : Apart ts
  balanced : ts.count .opening = ts.count .closing

namespace Phrase

theorem literal (n : Literal) : Phrase [number n.digits] where
  proper := by simpa [Proper] using ⟨n.nonempty, n.isDigit⟩
  apart := List.isChain_singleton _
  balanced := rfl

theorem binary {ls rs : List Token} (op : Operator) (hl : Phrase ls) (hr : Phrase rs) :
    Phrase (ls ++ operator op :: rs) where
  proper := by
    simp only [List.forall_mem_append, List.forall_mem_cons]
    exact ⟨hl.proper, trivial, hr.proper⟩
  apart := by
    refine List.isChain_append.mpr ⟨hl.apart, List.isChain_cons.mpr ⟨?_, hr.apart⟩, ?_⟩
    · intro u _ h
      exact Bool.false_ne_true h.1
    · intro t _ u hu h
      obtain rfl : operator op = u := by simpa using hu
      exact Bool.false_ne_true h.2
  balanced := by simp [hl.balanced, hr.balanced]

theorem group {ts : List Token} (h : Phrase ts) : Phrase (opening :: (ts ++ [closing])) where
  proper := by
    simp only [List.forall_mem_append, List.forall_mem_cons]
    exact ⟨trivial, h.proper, trivial, by simp⟩
  apart := by
    refine List.isChain_cons.mpr ⟨fun u _ hu => Bool.false_ne_true hu.1, ?_⟩
    refine List.isChain_append.mpr ⟨h.apart, List.isChain_singleton _, ?_⟩
    intro t _ u hu hc
    obtain rfl : closing = u := by simpa using hu
    exact Bool.false_ne_true hc.2
  balanced := by simp [h.balanced]

end Phrase

end Token

mutual
theorem Expr.phrase : ∀ e : Expr, Token.Phrase e.tokens
  | .term t => by rw [Expr.tokens]; exact Term.phrase t
  | .add l r => by rw [Expr.tokens]; exact .binary .add (Expr.phrase l) (Term.phrase r)
  | .subtract l r => by rw [Expr.tokens]; exact .binary .subtract (Expr.phrase l) (Term.phrase r)
theorem Term.phrase : ∀ t : Term, Token.Phrase t.tokens
  | .factor f => by rw [Term.tokens]; exact Factor.phrase f
  | .multiply l r => by
    rw [Term.tokens]; exact .binary .multiply (Term.phrase l) (Factor.phrase r)
  | .divide l r => by rw [Term.tokens]; exact .binary .divide (Term.phrase l) (Factor.phrase r)
theorem Factor.phrase : ∀ f : Factor, Token.Phrase f.tokens
  | .literal n => by rw [Factor.tokens]; exact .literal n
  | .group e => by rw [Factor.tokens]; exact .group (Expr.phrase e)
end

theorem Token.Apart.separated {ts : List Token} (h : Apart ts) (gap : Nat → Gap) :
    Separated gap ts := by
  intro i ds es hd he
  obtain ⟨hi, hd⟩ := List.getElem?_eq_some_iff.mp hd
  obtain ⟨hi', he⟩ := List.getElem?_eq_some_iff.mp he
  have hpair := List.isChain_iff_getElem.mp h i hi'
  rw [hd, he] at hpair
  exact absurd ⟨rfl, rfl⟩ hpair

/-- The scan of the text of an expression finds its tokens, whatever the blanks. -/
theorem Scan.ofString_spelling (e : Expr) (gap : Nat → Gap) :
    ofString (e.spelling gap) = ⟨e.tokens, none⟩ := by
  unfold ofString Expr.spelling
  rw [String.toList_ofList]
  exact ofChars_spell e.phrase.proper (e.phrase.apart.separated gap) 0

end Reckoner

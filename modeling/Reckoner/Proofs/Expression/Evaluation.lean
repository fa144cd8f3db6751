import Reckoner.Proofs.Expression.Grammar
import Reckoner.Proofs.Expression.Settling
import Reckoner.Proofs.Expression.ShiftReduce

/-! The evaluator gives every expression of the infix grammar its value. -/
namespace Reckoner
namespace Machine

/-- A value on top of the stack, or a division by zero instead of one. -/
def pushed (value? : Option Float) (values : List Float) (waiting : List Waiting) :
    Except Fault Machine :=
  match value? with
  | some value => .ok ⟨value :: values, waiting⟩
  | none => .error .divisionByZero

/-- Once the operators of `level` have acted, running the tokens has pushed the value, whatever
was on the stacks before. -/
def Evaluates (level : Nat) (ts : List Token) (value? : Option Float) : Prop :=
  ∀ values waiting, Calm level waiting →
    ((Machine.mk values waiting).run ts >>= fun m => settleFrom level m.values m.waiting) =
      pushed value? values waiting

theorem bind_settleFrom {low high : Nat} (hle : low ≤ high) (x : Except Fault Machine) :
    (x >>= fun m => settleFrom low m.values m.waiting) =
      (x >>= fun m => settleFrom high m.values m.waiting) >>= fun m =>
        settleFrom low m.values m.waiting := by
  simp only [bind_assoc, settleFrom_settleFrom hle]

theorem run_append_bind {α : Type} (m : Machine) (ts us : List Token)
    (f : Machine → Except Fault α) :
    (m.run (ts ++ us) >>= f) = m.run ts >>= fun next => next.run us >>= f := by
  rw [run_append, ← bind_assoc]
  rfl

theorem run_operator_bind {α : Type} (m : Machine) (op : Operator) (ts : List Token)
    (f : Machine → Except Fault α) :
    (m.run (.operator op :: ts) >>= f) =
      settleFrom op.precedence m.values m.waiting >>= fun settled =>
        (Machine.mk settled.values (.operator op :: settled.waiting)).run ts >>= f := by
  rw [← settle_eq_settleFrom]
  simp only [run, step, bind_assoc, pure_bind]

namespace Evaluates

theorem literal (level : Nat) (digits : List Char) :
    Evaluates level [.number digits] (some (Number.ofLiteral digits)) :=
  fun values _ hcalm => settleFrom_of_calm hcalm (Number.ofLiteral digits :: values)

theorem loosen {low high : Nat} (hle : low ≤ high) {ts : List Token} {value? : Option Float}
    (h : Evaluates high ts value?) : Evaluates low ts value? := by
  intro values waiting hcalm
  rw [bind_settleFrom hle, h values waiting (hcalm.mono hle)]
  cases value? with
  | none => rfl
  | some value => exact settleFrom_of_calm hcalm (value :: values)

theorem binary (op : Operator) {ls rs : List Token} {l r : Option Float}
    (hl : Evaluates op.precedence ls l) (hr : Evaluates (op.precedence + 1) rs r) :
    Evaluates op.precedence (ls ++ .operator op :: rs)
      (l.bind fun a => r.bind fun b => op.apply a b) := by
  intro values waiting hcalm
  rw [run_append_bind]
  simp only [run_operator_bind]
  -- When the operator comes, the left operand has acted and its value is on top.
  rw [← bind_assoc, hl values waiting hcalm]
  cases l with
  | none => rfl
  | some a =>
    -- The right operand binds more tightly, so the operator waits until its value is there.
    have hright := hr (a :: values) (.operator op :: waiting) (calm_operator op waiting)
    change ((Machine.mk (a :: values) (.operator op :: waiting)).run rs >>= fun m =>
      settleFrom op.precedence m.values m.waiting) = _
    rw [bind_settleFrom (Nat.le_succ _), hright]
    cases r with
    | none => rfl
    | some b =>
      change settleFrom op.precedence (b :: a :: values) (.operator op :: waiting) =
        pushed (op.apply a b) values waiting
      rw [settleFrom_operator (Nat.le_refl _)]
      cases happly : op.apply a b with
      | none => simp only [Operator.reduce, happly]; rfl
      | some value =>
        simp only [Operator.reduce, happly]
        exact settleFrom_of_calm hcalm (value :: values)

theorem group {ts : List Token} {value? : Option Float} (h : Evaluates 1 ts value?)
    (level : Nat) : Evaluates level (.opening :: (ts ++ [.closing])) value? := by
  intro values waiting hcalm
  -- The parenthesis on top shields the operators that wait outside.
  have hinside := h values (.opening :: waiting) (calm_opening 1 waiting)
  have hclose : ∀ m : Machine, m.run [.closing] =
      settleFrom 1 m.values m.waiting >>= fun next => closeGroup next.values next.waiting := by
    intro m
    rw [closeGroup_settleFrom]
    exact bind_pure _
  change ((Machine.mk values (.opening :: waiting)).run (ts ++ [.closing]) >>= fun m =>
    settleFrom level m.values m.waiting) = _
  rw [run_append_bind]
  simp only [hclose, bind_assoc]
  rw [← bind_assoc, hinside]
  cases value? with
  | none => rfl
  | some value => exact settleFrom_of_calm hcalm (value :: values)

/-- At the end of a balanced text only the value is left. -/
theorem finish {ts : List Token} {value? : Option Float} (h : Evaluates 1 ts value?)
    (hb : ts.count .opening = ts.count .closing) :
    (start.run ts >>= Machine.finish) = value?.elim (.error .divisionByZero) .ok := by
  have hdrain : (start.run ts >>= fun m => drain m.values m.waiting) =
      pushed value? [] [] >>= fun m => drain m.values m.waiting := by
    rw [← h [] [] (calm_nil 1), bind_assoc]
    simp only [drain_settleFrom]
    rfl
  cases hrun : start.run ts with
  | error fault =>
    rw [hrun] at hdrain
    cases value? <;> cases hdrain
    rfl
  | ok m =>
    have hdrained : drain m.values m.waiting =
        pushed value? [] [] >>= fun m => drain m.values m.waiting := by
      rw [← hdrain, hrun]
      rfl
    have hclosed : m.waiting.contains .opening = false := by
      have hcount := count_opening_of_run hrun
      have hzero : m.waiting.count .opening = 0 := by omega
      simpa using List.count_eq_zero.mp hzero
    change m.finish = _
    rw [Machine.finish, hclosed, hdrained]
    cases value? <;> rfl

end Evaluates

end Machine

mutual
theorem Expr.evaluates : ∀ e : Expr, Machine.Evaluates 1 e.tokens e.value?
  | .term t => by
    rw [Expr.tokens, Expr.value?]
    exact (Term.evaluates t).loosen (Nat.le_succ 1)
  | .add l r => by
    rw [Expr.tokens, Expr.value?]
    exact .binary .add (Expr.evaluates l) (Term.evaluates r)
  | .subtract l r => by
    rw [Expr.tokens, Expr.value?]
    exact .binary .subtract (Expr.evaluates l) (Term.evaluates r)
theorem Term.evaluates : ∀ t : Term, Machine.Evaluates 2 t.tokens t.value?
  | .factor f => by
    rw [Term.tokens, Term.value?]
    exact (Factor.evaluates f 3).loosen (Nat.le_succ 2)
  | .multiply l r => by
    rw [Term.tokens, Term.value?]
    exact .binary .multiply (Term.evaluates l) (Factor.evaluates r 3)
  | .divide l r => by
    rw [Term.tokens, Term.value?]
    exact .binary .divide (Term.evaluates l) (Factor.evaluates r 3)
theorem Factor.evaluates : ∀ (f : Factor) (level : Nat), Machine.Evaluates level f.tokens f.value?
  | .literal n, level => by
    rw [Factor.tokens, Factor.value?]
    exact .literal level n.digits
  | .group e, level => by
    rw [Factor.tokens, Factor.value?]
    exact .group (Expr.evaluates e) level
end

/-- The text of an expression evaluates to its value, or fails because of a zero divisor. -/
theorem compute_spelling (e : Expr) (gap : Nat → Gap) :
    (compute (e.spelling gap)).mapError (fun fault => fault.error (e.spelling gap)) =
      match e.value? with
      | some value => .ok value
      | none => .error
          { kind := .divisionByZero
            expression := e.spelling gap
            detail := "Cannot divide by zero"
            position := none } := by
  have hscan : compute (e.spelling gap) = Machine.start.run e.tokens >>= Machine.finish := by
    rw [compute, Scan.value, Scan.machine, Scan.ofString_spelling]
    exact bind_assoc ..
  rw [hscan, (Expr.evaluates e).finish e.phrase.balanced]
  cases e.value? <;> rfl

end Reckoner

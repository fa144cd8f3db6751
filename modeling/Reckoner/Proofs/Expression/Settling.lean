import Reckoner.Expression.Machine

/-! Waiting operators that act down to a level of precedence. What an incoming operator, a closing
parenthesis or the end does is unchanged if the tighter operators have acted before. -/
namespace Reckoner.Machine

/-- Applies the operators on top that bind at least as tightly as `level`. -/
def settleFrom (level : Nat) (values : List Float) : List Waiting → Except Fault Machine
  | .operator op :: rest =>
    if level ≤ op.precedence then do
      let values ← op.reduce values
      settleFrom level values rest
    else .ok ⟨values, .operator op :: rest⟩
  | waiting => .ok ⟨values, waiting⟩

/-- The operator on top, if there is one, binds less tightly than `level`. -/
def Calm (level : Nat) (waiting : List Waiting) : Prop :=
  ∀ op, waiting.head? = some (.operator op) → op.precedence < level

theorem Calm.mono {low high : Nat} {waiting : List Waiting} (h : Calm low waiting)
    (hle : low ≤ high) : Calm high waiting :=
  fun op hop => Nat.lt_of_lt_of_le (h op hop) hle

theorem calm_nil (level : Nat) : Calm level [] := by
  intro op h
  cases h

theorem calm_opening (level : Nat) (waiting : List Waiting) : Calm level (.opening :: waiting) := by
  intro op h
  cases h

theorem calm_operator (op : Operator) (waiting : List Waiting) :
    Calm (op.precedence + 1) (.operator op :: waiting) := by
  intro top h
  cases h
  exact Nat.lt_succ_self _

theorem settle_eq_settleFrom (incoming : Operator) (values : List Float) (waiting : List Waiting) :
    settle incoming values waiting = settleFrom incoming.precedence values waiting := by
  induction waiting generalizing values with
  | nil => rfl
  | cons w rest ih =>
    cases w with
    | opening => rfl
    | operator op => simp only [settle, settleFrom, Operator.actsBefore, decide_eq_true_eq, ih]

theorem settleFrom_of_calm {level : Nat} {waiting : List Waiting} (h : Calm level waiting)
    (values : List Float) : settleFrom level values waiting = .ok ⟨values, waiting⟩ := by
  cases waiting with
  | nil => rfl
  | cons w rest =>
    cases w with
    | opening => rfl
    | operator op =>
      have hop : op.precedence < level := h op rfl
      rw [settleFrom, if_neg (by omega)]

theorem settleFrom_operator {level : Nat} {op : Operator} (h : level ≤ op.precedence)
    (values : List Float) (waiting : List Waiting) :
    settleFrom level values (.operator op :: waiting) =
      op.reduce values >>= fun reduced => settleFrom level reduced waiting := by
  rw [settleFrom, if_pos h]

/-- What goes through the operators of a level one by one may start after they have acted. -/
theorem settleFrom_bind {α : Type} {level : Nat}
    {g : List Float → List Waiting → Except Fault α}
    (hg : ∀ op values waiting, level ≤ op.precedence →
      g values (.operator op :: waiting) = op.reduce values >>= fun reduced => g reduced waiting)
    (values : List Float) (waiting : List Waiting) :
    (settleFrom level values waiting >>= fun m => g m.values m.waiting) = g values waiting := by
  induction waiting generalizing values with
  | nil => rfl
  | cons w rest ih =>
    cases w with
    | opening => rfl
    | operator op =>
      by_cases hop : level ≤ op.precedence
      · rw [settleFrom_operator hop, hg op values rest hop, bind_assoc]
        simp only [ih]
      · rw [settleFrom, if_neg hop]
        rfl

theorem settleFrom_settleFrom {low high : Nat} (hle : low ≤ high) (values : List Float)
    (waiting : List Waiting) :
    (settleFrom high values waiting >>= fun m => settleFrom low m.values m.waiting) =
      settleFrom low values waiting :=
  settleFrom_bind (fun _ vs ws hop => settleFrom_operator (Nat.le_trans hle hop) vs ws) values
    waiting

theorem closeGroup_settleFrom (level : Nat) (values : List Float) (waiting : List Waiting) :
    (settleFrom level values waiting >>= fun m => closeGroup m.values m.waiting) =
      closeGroup values waiting :=
  settleFrom_bind (fun _ _ _ _ => rfl) values waiting

theorem drain_settleFrom (level : Nat) (values : List Float) (waiting : List Waiting) :
    (settleFrom level values waiting >>= fun m => drain m.values m.waiting) =
      drain values waiting :=
  settleFrom_bind (fun _ _ _ _ => rfl) values waiting

end Reckoner.Machine

import Mathlib.Logic.Relation
import Reckoner.Expression.Machine

/-! The evaluator as a machine of two moves: an operator on top acts on the topmost values, or a
token goes to one of the stacks. What both moves keep holds of every value that an expression gets.
-/
namespace Reckoner

namespace Token

def literal? : Token → Option (List Char)
  | number digits => some digits
  | operator _ | opening | closing => none

def operator? : Token → Option Operator
  | operator op => some op
  | number _ | opening | closing => none

def literals (ts : List Token) : List (List Char) := ts.filterMap literal?

def operators (ts : List Token) : List Operator := ts.filterMap operator?

@[simp] theorem literals_concat (ts : List Token) (t : Token) :
    literals (ts ++ [t]) = literals ts ++ t.literal?.toList := by
  cases h : t.literal? <;> simp [literals, h]

@[simp] theorem operators_concat (ts : List Token) (t : Token) :
    operators (ts ++ [t]) = operators ts ++ t.operator?.toList := by
  cases h : t.operator? <;> simp [operators, h]

end Token

namespace Waiting

def operators : List Waiting → List Operator
  | [] => []
  | opening :: rest => operators rest
  | operator op :: rest => op :: operators rest

end Waiting

namespace Machine
open Relation (ReflTransGen)

/-- The operator on top acts. -/
inductive Reduces : Machine → Machine → Prop
  | act {op : Operator} {values reduced : List Float} {waiting : List Waiting}
      (h : op.reduce values = .ok reduced) :
      Reduces ⟨values, .operator op :: waiting⟩ ⟨reduced, waiting⟩

/-- A token goes to a stack; a closing parenthesis takes the opening one away. -/
inductive Shifts : Machine → Token → Machine → Prop
  | number {values waiting} (digits : List Char) :
      Shifts ⟨values, waiting⟩ (.number digits) ⟨Number.ofLiteral digits :: values, waiting⟩
  | operator {values waiting} (op : Operator) :
      Shifts ⟨values, waiting⟩ (.operator op) ⟨values, .operator op :: waiting⟩
  | opening {values waiting} : Shifts ⟨values, waiting⟩ .opening ⟨values, .opening :: waiting⟩
  | closing {values waiting} : Shifts ⟨values, .opening :: waiting⟩ .closing ⟨values, waiting⟩

theorem bind_eq_ok {α β : Type} {x : Except Fault α} {f : α → Except Fault β} {b : β}
    (h : x >>= f = .ok b) : ∃ a, x = .ok a ∧ f a = .ok b := by
  cases x with
  | error fault => cases h
  | ok a => exact ⟨a, rfl, h⟩

theorem settle_reduces {incoming : Operator} {values : List Float} {waiting : List Waiting}
    {m : Machine} (h : settle incoming values waiting = .ok m) :
    ReflTransGen Reduces ⟨values, waiting⟩ m := by
  induction waiting generalizing values with
  | nil => cases h; exact .refl
  | cons w rest ih =>
    cases w with
    | opening => cases h; exact .refl
    | operator op =>
      simp only [settle] at h
      split at h
      · obtain ⟨reduced, hr, h⟩ := bind_eq_ok h
        exact .head (.act hr) (ih h)
      · cases h; exact .refl

theorem closeGroup_reduces {values : List Float} {waiting : List Waiting} {m : Machine}
    (h : closeGroup values waiting = .ok m) :
    ReflTransGen Reduces ⟨values, waiting⟩ ⟨m.values, .opening :: m.waiting⟩ := by
  induction waiting generalizing values with
  | nil => cases h
  | cons w rest ih =>
    cases w with
    | opening => cases h; exact .refl
    | operator op =>
      obtain ⟨reduced, hr, h⟩ := bind_eq_ok h
      exact .head (.act hr) (ih h)

theorem drain_reduces {values drained : List Float} {waiting : List Waiting}
    (h : drain values waiting = .ok drained) :
    ReflTransGen Reduces ⟨values, waiting⟩ ⟨drained, []⟩ := by
  induction waiting generalizing values with
  | nil => cases h; exact .refl
  | cons w rest ih =>
    cases w with
    | opening => cases h
    | operator op =>
      obtain ⟨reduced, hr, h⟩ := bind_eq_ok h
      exact .head (.act hr) (ih h)

/-- A step applies waiting operators and then shifts its token. -/
theorem step_reduces_shifts {m next : Machine} {t : Token} (h : m.step t = .ok next) :
    ∃ settled, ReflTransGen Reduces m settled ∧ Shifts settled t next := by
  cases t with
  | number digits => cases h; exact ⟨m, .refl, .number digits⟩
  | opening => cases h; exact ⟨m, .refl, .opening⟩
  | closing => exact ⟨_, closeGroup_reduces h, .closing⟩
  | operator op =>
    obtain ⟨settled, hs, h⟩ := bind_eq_ok h
    cases h
    exact ⟨settled, settle_reduces hs, .operator op⟩

theorem drain_of_finish {m : Machine} {value : Float} (h : m.finish = .ok value) :
    drain m.values m.waiting = .ok [value] := by
  unfold finish at h
  split at h
  · cases h
  obtain ⟨drained, hd, h⟩ := bind_eq_ok h
  rcases drained with _ | ⟨v, _ | ⟨w, rest⟩⟩ <;> cases h
  exact hd

theorem finish_reduces {m : Machine} {value : Float} (h : m.finish = .ok value) :
    ReflTransGen Reduces m ⟨[value], []⟩ :=
  drain_reduces (drain_of_finish h)

section Invariant

variable {P : List Token → Machine → Prop}
  (hreduce : ∀ read m next, P read m → Reduces m next → P read next)
  (hshift : ∀ read m t next, P read m → Shifts m t next → P (read ++ [t]) next)

include hreduce in
theorem invariant_reduces {read : List Token} {m next : Machine} (hP : P read m)
    (h : ReflTransGen Reduces m next) : P read next := by
  induction h with
  | refl => exact hP
  | tail _ hlast ih => exact hreduce _ _ _ ih hlast

include hreduce hshift in
/-- A relation between the tokens read and the machine that both moves keep holds after a run. -/
theorem invariant_run {read ts : List Token} {m final : Machine} (hP : P read m)
    (h : m.run ts = .ok final) : P (read ++ ts) final := by
  induction ts generalizing read m with
  | nil => cases h; simpa using hP
  | cons t rest ih =>
    obtain ⟨next, hstep, hrest⟩ := bind_eq_ok h
    obtain ⟨settled, hr, hs⟩ := step_reduces_shifts hstep
    simpa using ih (hshift _ _ _ _ (invariant_reduces hreduce hP hr) hs) hrest

end Invariant

theorem count_opening_of_run {ts : List Token} {m : Machine} (h : start.run ts = .ok m) :
    m.waiting.count .opening + ts.count .closing = ts.count .opening := by
  let P (read : List Token) (m : Machine) : Prop :=
    m.waiting.count .opening + read.count .closing = read.count .opening
  have hreduce : ∀ read m next, P read m → Reduces m next → P read next := by
    intro read m next hP hr
    cases hr
    simpa [P] using hP
  have hshift : ∀ read m t next, P read m → Shifts m t next → P (read ++ [t]) next := by
    intro read m t next hP hs
    cases hs <;> simp [P] at hP ⊢ <;> omega
  have hinv : P ([] ++ ts) m := invariant_run hreduce hshift rfl h
  exact hinv

end Machine

/-- An expression has a value if the machine runs through all of it and finishes with that value. -/
theorem compute_eq_ok_iff {expression : String} {value : Float} :
    compute expression = .ok value ↔
      ∃ m, Machine.start.run (Scan.ofString expression).tokens = .ok m ∧
        (Scan.ofString expression).stray? = none ∧ m.finish = .ok value := by
  unfold compute Scan.value Scan.machine
  cases Machine.start.run (Scan.ofString expression).tokens with
  | error fault => simp [bind, Except.bind]
  | ok m =>
    cases (Scan.ofString expression).stray? with
    | none => simp [bind, Except.bind]
    | some stray => simp [bind, Except.bind]

theorem stray?_eq_none_of_compute {expression : String} {value : Float}
    (h : compute expression = .ok value) : (Scan.ofString expression).stray? = none := by
  obtain ⟨_, -, hstray, -⟩ := compute_eq_ok_iff.mp h
  exact hstray

/-- What holds at the start and is kept by both moves holds when only the value is left. -/
theorem invariant_compute {P : List Token → Machine → Prop} (hstart : P [] Machine.start)
    (hreduce : ∀ read m next, P read m → Machine.Reduces m next → P read next)
    (hshift : ∀ read m t next, P read m → Machine.Shifts m t next → P (read ++ [t]) next)
    {expression : String} {value : Float} (h : compute expression = .ok value) :
    P (Scan.ofString expression).tokens ⟨[value], []⟩ := by
  obtain ⟨m, hrun, -, hfinish⟩ := compute_eq_ok_iff.mp h
  have hm : P ([] ++ (Scan.ofString expression).tokens) m :=
    Machine.invariant_run hreduce hshift hstart hrun
  exact Machine.invariant_reduces hreduce hm (Machine.finish_reduces hfinish)

end Reckoner

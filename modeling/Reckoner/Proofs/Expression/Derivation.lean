import Reckoner.Proofs.Expression.Conservation
import Reckoner.Proofs.Expression.Grammar

/-! Which of the expressions that get a value the infix grammar derives. The evaluator counts
operands and operators and takes no notice of their places, so an operator may find its operands
anywhere before it; this needs operands that stand side by side, and nothing else lets it happen. -/
namespace Reckoner

/-- What a group holds before an operand: nothing, or an expression and an operator. -/
inductive Pending : List Token → Prop
  | empty : Pending []
  | operator (e : Expr) (op : Operator) : Pending (e.tokens ++ [.operator op])

/-- Puts a factor to the last term of an expression. -/
def Expr.extend (e : Expr) (op : Term → Factor → Term) (f : Factor) : Expr :=
  match e with
  | .term t => .term (op t f)
  | .add l t => .add l (op t f)
  | .subtract l t => .subtract l (op t f)

theorem Pending.append_factor {ts : List Token} (h : Pending ts) (f : Factor) :
    Derivable (ts ++ f.tokens) := by
  cases h with
  | empty => exact ⟨.term (.factor f), by simp [Expr.tokens, Term.tokens]⟩
  | operator e op =>
    cases op with
    | add => exact ⟨.add e (.factor f), by simp [Expr.tokens, Term.tokens]⟩
    | subtract => exact ⟨.subtract e (.factor f), by simp [Expr.tokens, Term.tokens]⟩
    | multiply =>
      exact ⟨e.extend .multiply f, by cases e <;> simp [Expr.extend, Expr.tokens, Term.tokens]⟩
    | divide =>
      exact ⟨e.extend .divide f, by cases e <;> simp [Expr.extend, Expr.tokens, Term.tokens]⟩

/-- The groups that are open, each up to the parenthesis that opens the next one. -/
inductive Enclosing : List Token → Nat → Prop
  | outermost : Enclosing [] 0
  | group {outer ts : List Token} {depth : Nat} (ho : Enclosing outer depth) (hp : Pending ts) :
      Enclosing (outer ++ (ts ++ [.opening])) (depth + 1)

/-- An expression read up to a place where an operand is needed, with `depth` groups open. -/
def WantsOperand (read : List Token) (depth : Nat) : Prop :=
  ∃ outer ts, read = outer ++ ts ∧ Enclosing outer depth ∧ Pending ts

def HasOperand (read : List Token) (depth : Nat) : Prop :=
  ∃ outer ts, read = outer ++ ts ∧ Enclosing outer depth ∧ Derivable ts

theorem wantsOperand_nil : WantsOperand [] 0 := ⟨[], [], rfl, .outermost, .empty⟩

theorem WantsOperand.number {read : List Token} {depth : Nat} (h : WantsOperand read depth)
    (n : Literal) : HasOperand (read ++ [.number n.digits]) depth := by
  obtain ⟨outer, ts, rfl, ho, hp⟩ := h
  have hd := hp.append_factor (.literal n)
  rw [Factor.tokens] at hd
  exact ⟨outer, _, List.append_assoc .., ho, hd⟩

theorem WantsOperand.opening {read : List Token} {depth : Nat} (h : WantsOperand read depth) :
    WantsOperand (read ++ [.opening]) (depth + 1) := by
  obtain ⟨outer, ts, rfl, ho, hp⟩ := h
  exact ⟨_, [], by simp, ho.group hp, .empty⟩

theorem HasOperand.operator {read : List Token} {depth : Nat} (h : HasOperand read depth)
    (op : Operator) : WantsOperand (read ++ [.operator op]) depth := by
  obtain ⟨outer, _, rfl, ho, e, rfl⟩ := h
  exact ⟨outer, _, List.append_assoc .., ho, .operator e op⟩

theorem HasOperand.closing {read : List Token} {depth : Nat} (h : HasOperand read (depth + 1)) :
    HasOperand (read ++ [.closing]) depth := by
  obtain ⟨_, _, rfl, ho, e, rfl⟩ := h
  cases ho with
  | @group outer ts _ ho hp =>
    have hd := hp.append_factor (.group e)
    rw [Factor.tokens] at hd
    exact ⟨outer, _, by simp, ho, hd⟩

theorem HasOperand.derivable {read : List Token} (h : HasOperand read 0) : Derivable read := by
  obtain ⟨_, ts, rfl, ho, hd⟩ := h
  cases ho
  exact hd

namespace Token

def atOperandEnd (ts : List Token) : Bool := ts.getLast?.any endsOperand

@[simp] theorem atOperandEnd_concat (ts : List Token) (t : Token) :
    atOperandEnd (ts ++ [t]) = t.endsOperand := by
  simp [atOperandEnd]

/-- With operands apart there are never more literals than places for them, and as many only if
the tokens are so far those of an expression. -/
structure Tallied (read : List Token) (depth : Nat) : Prop where
  le : (literals read).length ≤ (operators read).length + (atOperandEnd read).toNat
  hasOperand : atOperandEnd read = true →
    (literals read).length = (operators read).length + 1 → HasOperand read depth
  wantsOperand : atOperandEnd read = false →
    (literals read).length = (operators read).length → WantsOperand read depth

theorem tallied_nil : Tallied [] 0 where
  le := Nat.le_refl 0
  hasOperand := fun h _ => absurd h (by decide)
  wantsOperand := fun _ _ => wantsOperand_nil

theorem tallied_concat {read : List Token} {t : Token} {depth : Nat}
    (hle : (literals read).length + t.literal?.toList.length ≤
      (operators read).length + t.operator?.toList.length + t.endsOperand.toNat)
    (hhas : t.endsOperand = true → (literals read).length + t.literal?.toList.length =
      (operators read).length + t.operator?.toList.length + 1 → HasOperand (read ++ [t]) depth)
    (hwants : t.endsOperand = false → (literals read).length + t.literal?.toList.length =
      (operators read).length + t.operator?.toList.length → WantsOperand (read ++ [t]) depth) :
    Tallied (read ++ [t]) depth := by
  constructor <;> rw [atOperandEnd_concat, literals_concat, operators_concat] <;>
    simpa only [List.length_append]

theorem Tallied.shifts {read : List Token} {m next : Machine} {t : Token}
    (h : Tallied read (m.waiting.count .opening)) (hs : Machine.Shifts m t next) (hp : t.Proper)
    (hstart : t.startsOperand = true → atOperandEnd read = false) :
    Tallied (read ++ [t]) (next.waiting.count .opening) := by
  obtain ⟨hle, hhas, hwants⟩ := h
  cases hs with
  | number digits =>
    have hend : atOperandEnd read = false := hstart rfl
    rw [hend, Bool.toNat_false] at hle
    refine tallied_concat (Nat.add_le_add_right hle 1) ?_ nofun
    intro _ hcount
    exact (hwants hend (Nat.succ_inj.mp hcount)).number ⟨digits, hp.1, hp.2⟩
  | operator op =>
    have hbound := hle.trans (Nat.add_le_add_left (Bool.toNat_le _) _)
    refine tallied_concat hbound nofun ?_
    intro _ hcount
    rw [List.count_cons_of_ne (by simp)]
    cases hend : atOperandEnd read with
    | true => exact (hhas hend hcount).operator op
    | false =>
      -- An operator in the wrong place is one too many, which no later token makes up for.
      rw [hend] at hle
      exact absurd hcount (Nat.ne_of_lt (Nat.lt_succ_of_le hle))
  | opening =>
    have hend : atOperandEnd read = false := hstart rfl
    rw [hend, Bool.toNat_false] at hle
    refine tallied_concat hle nofun ?_
    intro _ hcount
    rw [List.count_cons_self]
    exact (hwants hend hcount).opening
  | closing =>
    have hbound := hle.trans (Nat.add_le_add_left (Bool.toNat_le _) _)
    refine tallied_concat hbound ?_ nofun
    intro _ hcount
    rw [List.count_cons_self] at hhas
    cases hend : atOperandEnd read with
    | true => exact (hhas hend hcount).closing
    | false =>
      rw [hend] at hle
      exact absurd hcount (Nat.ne_of_lt (Nat.lt_succ_of_le hle))

theorem Apart.of_concat {ts : List Token} {t : Token} (h : Apart (ts ++ [t])) :
    Apart ts ∧ (t.startsOperand = true → atOperandEnd ts = false) := by
  obtain ⟨hts, -, hlast⟩ := List.isChain_append.mp h
  refine ⟨hts, fun hstart => ?_⟩
  cases hl : ts.getLast? with
  | none => simp [atOperandEnd, hl]
  | some u =>
    have hnot : ¬(u.endsOperand = true ∧ t.startsOperand = true) := hlast u hl t rfl
    simpa [atOperandEnd, hl] using fun hu => hnot ⟨hu, hstart⟩

end Token

/-- The whole of an expression is tokens, and the grammar yields them. -/
def WellFormed (expression : String) : Prop :=
  (Scan.ofString expression).stray? = none ∧ Derivable (Scan.ofString expression).tokens

/-- Of the expressions that get a value those are well formed that have their operands apart. -/
theorem wellFormed_iff_apart_of_compute {expression : String} {value : Float}
    (h : compute expression = .ok value) :
    WellFormed expression ↔ Token.Apart (Scan.ofString expression).tokens := by
  constructor
  · rintro ⟨-, e, he⟩
    exact he ▸ e.phrase.apart
  · intro hapart
    have hproper := Scan.proper_ofChars 0 expression.toList
    let P (read : List Token) (m : Machine) : Prop :=
      (∀ t ∈ read, t.Proper) → Token.Apart read → Token.Tallied read (m.waiting.count .opening)
    have hreduce : ∀ read m next, P read m → Machine.Reduces m next → P read next := by
      intro read m next hP hr
      cases hr
      simpa [P] using hP
    have hshift : ∀ read m t next, P read m → Machine.Shifts m t next → P (read ++ [t]) next := by
      intro read m t next hP hs hread ha
      obtain ⟨ha, hstart⟩ := ha.of_concat
      have hm := hP (fun u hu => hread u (List.mem_append_left _ hu)) ha
      exact hm.shifts hs (hread t (by simp)) hstart
    have hfinal : P (Scan.ofString expression).tokens ⟨[value], []⟩ :=
      invariant_compute (fun _ _ => Token.tallied_nil) hreduce hshift h
    obtain ⟨hle, hhas, -⟩ := hfinal hproper hapart
    have hcount := length_literals_of_compute h
    have hend : Token.atOperandEnd (Scan.ofString expression).tokens = true := by
      by_contra hne
      rw [Bool.not_eq_true] at hne
      rw [hne, Bool.toNat_false] at hle
      omega
    exact ⟨stray?_eq_none_of_compute h, (hhas hend hcount).derivable⟩

theorem wellFormed_of_compute_group :
    compute "(8-3) * 2" = .ok 10 ∧ Token.Apart (Scan.ofString "(8-3) * 2").tokens ∧
      WellFormed "(8-3) * 2" := by
  have h : compute "(8-3) * 2" = .ok 10 := by decide +kernel
  have ha : Token.Apart (Scan.ofString "(8-3) * 2").tokens := by
    unfold Token.Apart
    decide
  exact ⟨h, ha, (wellFormed_iff_apart_of_compute h).mpr ha⟩

/-- The trailing operator takes both literals. -/
theorem compute_trailing_operator : compute "1 2+" = .ok 3 ∧ ¬WellFormed "1 2+" := by
  refine ⟨by decide +kernel, ?_⟩
  rintro ⟨-, e, he⟩
  have ha : Token.Apart (Scan.ofString "1 2+").tokens := he ▸ e.phrase.apart
  revert ha
  unfold Token.Apart
  decide

end Reckoner

import Mathlib.Data.List.Forall2
import Reckoner.Proofs.Expression.ShiftReduce

/-! The values on the stack as a forest: its leaves are the literals read so far, its inner nodes
the operators that have acted. A value is therefore made of all that was read, each part once. -/
namespace Reckoner

/-- Operators applied to literals. -/
inductive Tree where
  | leaf (digits : List Char)
  | node (op : Operator) (l r : Tree)

namespace Tree

def leaves : Tree → List (List Char)
  | leaf digits => [digits]
  | node _ l r => l.leaves ++ r.leaves

def operators : Tree → List Operator
  | leaf _ => []
  | node op l r => op :: (l.operators ++ r.operators)

/-- From the leaves up, with the left operand on the left. -/
def value? : Tree → Option Float
  | leaf digits => some (Number.ofLiteral digits)
  | node op l r => do
    let a ← l.value?
    let b ← r.value?
    op.apply a b

@[simp] theorem length_leaves (tree : Tree) : tree.leaves.length = tree.operators.length + 1 := by
  induction tree with
  | leaf digits => rfl
  | node op l r hl hr =>
    simp only [leaves, operators, List.length_append, List.length_cons]
    omega

end Tree

theorem Operator.reduce_eq_ok_iff {op : Operator} {values reduced : List Float} :
    op.reduce values = .ok reduced ↔
      ∃ a b value rest, values = b :: a :: rest ∧ op.apply a b = some value ∧
        reduced = value :: rest := by
  constructor
  · intro h
    rcases values with _ | ⟨b, _ | ⟨a, rest⟩⟩
    · cases h
    · cases h
    · cases happly : op.apply a b with
      | none => simp [reduce, happly] at h
      | some value =>
        have hreduced : reduced = value :: rest := by simpa [reduce, happly] using h.symm
        exact ⟨a, b, value, rest, rfl, happly, hreduced⟩
  · rintro ⟨a, b, value, rest, rfl, happly, rfl⟩
    simp only [reduce, happly]

namespace Machine

/-- `forest` stands for the values of `m`, the topmost first, and accounts for all of `read`. -/
structure Grown (read : List Token) (forest : List Tree) (m : Machine) : Prop where
  values : List.Forall₂ (fun tree value => tree.value? = some value) forest m.values
  leaves : forest.reverse.flatMap Tree.leaves = Token.literals read
  operators : (forest.flatMap Tree.operators ++ Waiting.operators m.waiting).Perm
    (Token.operators read)

theorem Grown.reduces {read : List Token} {forest : List Tree} {m next : Machine}
    (h : Grown read forest m) (hr : Reduces m next) : ∃ grown, Grown read grown next := by
  obtain ⟨hv, hl, ho⟩ := h
  cases hr with
  | @act op values reduced waiting hop =>
    obtain ⟨a, b, value, rest, rfl, happly, rfl⟩ := Operator.reduce_eq_ok_iff.mp hop
    cases hv with
    | @cons tb _ _ _ hb hv =>
      cases hv with
      | @cons ta _ trees _ ha hv =>
        refine ⟨.node op ta tb :: trees, .cons ?_ hv, ?_, ?_⟩
        · simpa [Tree.value?, ha, hb] using happly
        · simpa [Tree.leaves] using hl
        · rw [List.perm_iff_count] at ho ⊢
          intro x
          have hx := ho x
          simp only [List.flatMap_cons, Tree.operators, Waiting.operators, List.count_append,
            List.count_cons] at hx ⊢
          omega

theorem Grown.shifts {read : List Token} {forest : List Tree} {m next : Machine} {t : Token}
    (h : Grown read forest m) (hs : Shifts m t next) : ∃ grown, Grown (read ++ [t]) grown next := by
  obtain ⟨hv, hl, ho⟩ := h
  cases hs with
  | number digits =>
    refine ⟨.leaf digits :: forest, .cons rfl hv, ?_, ?_⟩
    · simp [Token.literal?, Tree.leaves, hl]
    · simpa [Token.operator?, Tree.operators] using ho
  | operator op =>
    refine ⟨forest, hv, ?_, ?_⟩
    · simp [Token.literal?, hl]
    · rw [Token.operators_concat, List.perm_iff_count]
      intro x
      have hx := List.perm_iff_count.mp ho x
      simp only [Waiting.operators, Token.operator?, Option.toList, List.count_append,
        List.count_cons, List.count_nil] at hx ⊢
      omega
  | opening =>
    refine ⟨forest, hv, ?_, ?_⟩
    · simp [Token.literal?, hl]
    · simpa [Token.operator?, Waiting.operators] using ho
  | closing =>
    refine ⟨forest, hv, ?_, ?_⟩
    · simp [Token.literal?, hl]
    · simpa [Token.operator?, Waiting.operators] using ho

end Machine

theorem Machine.grown_start : Grown [] [] start := ⟨.nil, rfl, .nil⟩

/-- The values are still a forest when the end has made the last operators act. -/
theorem Machine.exists_grown_of_drain {ts : List Token} {m : Machine} {drained : List Float}
    (h : start.run ts = .ok m) (hd : drain m.values m.waiting = .ok drained) :
    ∃ forest, Grown ts forest ⟨drained, []⟩ := by
  let P (read : List Token) (m : Machine) : Prop := ∃ forest, Grown read forest m
  have hreduce : ∀ read m next, P read m → Reduces m next → P read next :=
    fun _ _ _ ⟨_, hP⟩ hr => hP.reduces hr
  have hshift : ∀ read m t next, P read m → Shifts m t next → P (read ++ [t]) next :=
    fun _ _ _ _ ⟨_, hP⟩ hs => hP.shifts hs
  have hrun : P ([] ++ ts) m := invariant_run hreduce hshift ⟨[], grown_start⟩ h
  exact invariant_reduces hreduce hrun (drain_reduces hd)

theorem Tree.length_flatMap_leaves (forest : List Tree) :
    (forest.flatMap leaves).length = (forest.flatMap operators).length + forest.length := by
  induction forest with
  | nil => rfl
  | cons tree forest ih =>
    have htree := tree.length_leaves
    simp only [List.flatMap_cons, List.length_append, List.length_cons]
    omega

/-- Every operator that has acted has made one value of two. -/
theorem Machine.Grown.length_literals {read : List Token} {forest : List Tree}
    {values : List Float} (h : Grown read forest ⟨values, []⟩) :
    (Token.literals read).length = (Token.operators read).length + values.length := by
  have hvalues : forest.length = values.length := h.values.length_eq
  have hleaves := congrArg List.length h.leaves
  have hoperators := h.operators.length_eq
  have hforest := Tree.length_flatMap_leaves forest
  have hreverse := ((List.reverse_perm forest).flatMap_right Tree.leaves).length_eq
  simp only [Waiting.operators, List.append_nil] at hoperators
  omega

theorem exists_grown_of_compute {expression : String} {value : Float}
    (h : compute expression = .ok value) :
    ∃ tree : Tree, Machine.Grown (Scan.ofString expression).tokens [tree] ⟨[value], []⟩ := by
  obtain ⟨m, hrun, -, hfinish⟩ := compute_eq_ok_iff.mp h
  obtain ⟨forest, hg⟩ := Machine.exists_grown_of_drain hrun (Machine.drain_of_finish hfinish)
  obtain ⟨tree, rfl⟩ : ∃ tree, forest = [tree] := by
    have hlength : forest.length = 1 := hg.values.length_eq
    exact List.length_eq_one_iff.mp hlength
  exact ⟨tree, hg⟩

theorem length_literals_of_compute {expression : String} {value : Float}
    (h : compute expression = .ok value) :
    (Token.literals (Scan.ofString expression).tokens).length =
      (Token.operators (Scan.ofString expression).tokens).length + 1 := by
  obtain ⟨tree, hg⟩ := exists_grown_of_compute h
  exact hg.length_literals

/-- A value is that of a tree with the literals of the expression as its leaves, in their order, and
its operators as inner nodes. The tokens are those of the whole expression. -/
theorem exists_tree_of_compute {expression : String} {value : Float}
    (h : compute expression = .ok value) :
    (Scan.ofString expression).stray? = none ∧
      (∃ tree : Tree, tree.leaves = Token.literals (Scan.ofString expression).tokens ∧
        tree.operators.Perm (Token.operators (Scan.ofString expression).tokens) ∧
        tree.value? = some value) ∧
      (Token.literals (Scan.ofString expression).tokens).length =
        (Token.operators (Scan.ofString expression).tokens).length + 1 := by
  obtain ⟨tree, hv, hl, ho⟩ := exists_grown_of_compute h
  have hleaves : tree.leaves = Token.literals (Scan.ofString expression).tokens := by
    simpa using hl
  have hoperators : tree.operators.Perm (Token.operators (Scan.ofString expression).tokens) := by
    simpa [Waiting.operators] using ho
  have hvalue : tree.value? = some value := by
    cases hv with
    | cons hvalue _ => exact hvalue
  exact ⟨stray?_eq_none_of_compute h, ⟨tree, hleaves, hoperators, hvalue⟩,
    length_literals_of_compute h⟩

theorem exists_tree_of_compute_postfix :
    compute "1 2 3*+" = .ok 7 ∧
      ∃ tree : Tree, tree.leaves = [['1'], ['2'], ['3']] ∧
        tree.operators.Perm [.multiply, .add] ∧ tree.value? = some 7 := by
  have h : compute "1 2 3*+" = .ok 7 := by decide +kernel
  obtain ⟨-, htree, -⟩ := exists_tree_of_compute h
  exact ⟨h, htree⟩

end Reckoner

import Reckoner.Proofs.Expression.Settling
import Reckoner.Proofs.Expression.ShiftReduce
import Reckoner.Proofs.Expression.Textual

/-! The order of the operators that wait. Within a group each binds more tightly than the one below
it, so that a group has two of them at most and an incoming operator makes two act at most. -/
namespace Reckoner

theorem Operator.precedence_mem (op : Operator) : op.precedence = 1 ∨ op.precedence = 2 := by
  cases op <;> simp [precedence]

namespace Machine

/-- An operator binds more tightly than the one right below it. -/
def Ascending : List Waiting → Prop
  | [] => True
  | .opening :: rest => Ascending rest
  | .operator op :: rest => Calm op.precedence rest ∧ Ascending rest

/-- The operators that an incoming one makes act, the topmost first. -/
def acting (incoming : Operator) : List Waiting → List Operator
  | .operator op :: rest => if op.actsBefore incoming then op :: acting incoming rest else []
  | _ => []

/-- Settling applies the acting operators one after the other and takes them off. -/
theorem settle_eq_foldlM (incoming : Operator) (values : List Float) (waiting : List Waiting) :
    settle incoming values waiting =
      ((acting incoming waiting).foldlM (fun values op => Operator.reduce op values) values).map
        fun reduced => ⟨reduced, waiting.drop (acting incoming waiting).length⟩ := by
  induction waiting generalizing values with
  | nil => rfl
  | cons w rest ih =>
    cases w with
    | opening => rfl
    | operator op =>
      simp only [settle, acting]
      split
      · rw [List.foldlM_cons, List.length_cons, List.drop_succ_cons]
        cases op.reduce values with
        | error fault => rfl
        | ok reduced => exact ih reduced
      · rfl

theorem eq_acting_append_drop (incoming : Operator) (waiting : List Waiting) :
    waiting = (acting incoming waiting).map .operator ++
      waiting.drop (acting incoming waiting).length := by
  induction waiting with
  | nil => rfl
  | cons w rest ih =>
    cases w with
    | opening => rfl
    | operator op =>
      simp only [acting]
      split
      · rw [List.length_cons, List.drop_succ_cons, List.map_cons, List.cons_append, ← ih]
      · rfl

section Order

variable {waiting : List Waiting}

theorem Ascending.tail {w : Waiting} (h : Ascending (w :: waiting)) : Ascending waiting := by
  cases w with
  | opening => exact h
  | operator op => exact h.2

theorem Ascending.settle {incoming : Operator} {values : List Float} {m : Machine}
    (h : Ascending waiting) (hs : settle incoming values waiting = .ok m) :
    Ascending m.waiting ∧ Calm incoming.precedence m.waiting := by
  induction waiting generalizing values with
  | nil =>
    cases hs
    exact ⟨h, calm_nil _⟩
  | cons w rest ih =>
    cases w with
    | opening =>
      cases hs
      exact ⟨h, calm_opening _ _⟩
    | operator op =>
      simp only [Machine.settle, Operator.actsBefore, decide_eq_true_eq] at hs
      split at hs
      · obtain ⟨reduced, -, hs⟩ := bind_eq_ok hs
        exact ih h.2 hs
      · next hlooser =>
        cases hs
        exact ⟨h, (calm_operator op rest).mono (by omega)⟩

theorem Ascending.closeGroup {values : List Float} {m : Machine} (h : Ascending waiting)
    (hc : closeGroup values waiting = .ok m) : Ascending m.waiting := by
  induction waiting generalizing values with
  | nil => cases hc
  | cons w rest ih =>
    cases w with
    | opening =>
      cases hc
      exact h
    | operator op =>
      obtain ⟨reduced, -, hc⟩ := bind_eq_ok hc
      exact ih h.2 hc

theorem Ascending.step {m next : Machine} {t : Token} (h : Ascending m.waiting)
    (hs : m.step t = .ok next) : Ascending next.waiting := by
  cases t with
  | number digits =>
    cases hs
    exact h
  | opening =>
    cases hs
    exact h
  | closing => exact h.closeGroup hs
  | operator op =>
    obtain ⟨settled, hsettle, hs⟩ := bind_eq_ok hs
    cases hs
    obtain ⟨hascending, hcalm⟩ := h.settle hsettle
    exact ⟨hcalm, hascending⟩

theorem Ascending.run {m next : Machine} {ts : List Token} (h : Ascending m.waiting)
    (hr : m.run ts = .ok next) : Ascending next.waiting := by
  induction ts generalizing m with
  | nil =>
    cases hr
    exact h
  | cons t rest ih =>
    obtain ⟨after, hstep, hrest⟩ := bind_eq_ok hr
    exact ih (h.step hstep) hrest

theorem Ascending.pairwise {segment : List Operator} {below : List Waiting}
    (h : Ascending (segment.map .operator ++ below)) :
    segment.Pairwise fun upper lower => lower.precedence < upper.precedence := by
  induction segment with
  | nil => exact .nil
  | cons op rest ih =>
    have hrest := ih h.2
    refine .cons ?_ hrest
    -- Only the operator right below is known to bind less tightly; the others follow through it.
    cases rest with
    | nil => exact nofun
    | cons next rest =>
      have hnext : next.precedence < op.precedence := h.1 next rfl
      intro lower hlower
      rcases List.mem_cons.mp hlower with rfl | hlower
      · exact hnext
      · exact Nat.lt_trans ((List.pairwise_cons.mp hrest).1 lower hlower) hnext

theorem Ascending.segment {above below : List Waiting} {segment : List Operator}
    (h : Ascending waiting) (hw : waiting = above ++ segment.map .operator ++ below) :
    segment.Pairwise fun upper lower => lower.precedence < upper.precedence := by
  subst hw
  induction above with
  | nil => exact h.pairwise
  | cons w rest ih => exact ih h.tail

/-- There are two levels of precedence only. -/
theorem length_le_two_of_pairwise {segment : List Operator}
    (h : segment.Pairwise fun upper lower => lower.precedence < upper.precedence) :
    segment.length ≤ 2 := by
  rcases segment with _ | ⟨a, _ | ⟨b, _ | ⟨c, rest⟩⟩⟩
  · simp
  · simp
  · simp
  · simp only [List.pairwise_cons, List.mem_cons] at h
    have hab := h.1 b (.inl rfl)
    have hbc := h.2.1 c (.inl rfl)
    have ha := a.precedence_mem
    have hc := c.precedence_mem
    omega

/-- The precedence of the operator on top, if there is one. -/
def topLevel : List Waiting → Nat
  | .operator op :: _ => op.precedence
  | _ => 0

theorem topLevel_le (waiting : List Waiting) : topLevel waiting ≤ 2 := by
  rcases waiting with _ | ⟨_ | op, rest⟩
  · simp [topLevel]
  · simp [topLevel]
  · have hop := op.precedence_mem
    simp only [topLevel]
    omega

theorem topLevel_lt_of_calm {level : Nat} (h : Calm level waiting) (hpos : 0 < level) :
    topLevel waiting < level := by
  rcases waiting with _ | ⟨_ | op, rest⟩
  · exact hpos
  · exact hpos
  · exact h op rfl

theorem Ascending.length_le (h : Ascending waiting) :
    waiting.length ≤ 3 * waiting.count .opening + topLevel waiting := by
  induction waiting with
  | nil => simp
  | cons w rest ih =>
    have hrest := ih h.tail
    cases w with
    | opening =>
      have htop := topLevel_le rest
      have hcount : (Waiting.opening :: rest).count .opening = rest.count .opening + 1 :=
        List.count_cons_self
      rw [List.length_cons, hcount]
      omega
    | operator op =>
      have htop := topLevel_lt_of_calm h.1 (by have hop := op.precedence_mem; omega)
      have hcount : (Waiting.operator op :: rest).count .opening = rest.count .opening := by simp
      rw [List.length_cons, hcount, topLevel]
      omega

theorem Ascending.length_le_opened (h : Ascending waiting) :
    waiting.length ≤ 3 * waiting.count .opening + 2 :=
  Nat.le_trans h.length_le (Nat.add_le_add_left (topLevel_le waiting) _)

theorem Ascending.length_acting (h : Ascending waiting) (incoming : Operator) :
    (acting incoming waiting).length ≤ 2 := by
  have hsegment : Ascending ((acting incoming waiting).map .operator ++
      waiting.drop (acting incoming waiting).length) := by
    rw [← eq_acting_append_drop]
    exact h
  exact length_le_two_of_pairwise hsegment.pairwise

end Order

end Machine

theorem Textual.mem_operators_ofMachine {m : Machine} {text : String}
    (h : text ∈ (Stacks.ofMachine m).operators) : text ∈ ["+", "-", "*", "/", "("] := by
  obtain ⟨w, -, rfl⟩ := List.mem_map.mp h
  rcases w with _ | _ | _ <;> decide

/-- The stack of operators between any two tokens of an expression: what lies on it, how many
groups are open, how the operators of one group are ordered, how high it can grow, and that an
incoming operator makes two of them act at most. -/
theorem waiting_of_run {expression : String} {read : List Token}
    (hread : read <+: (Scan.ofString expression).tokens) {m : Machine}
    (h : Machine.start.run read = .ok m) :
    Textual.run expression ⟨[], []⟩ (read.map Token.text) = .ok (.ofMachine m) ∧
    (∀ text ∈ (Textual.Stacks.ofMachine m).operators, text ∈ ["+", "-", "*", "/", "("]) ∧
    m.waiting.count .opening + read.count .closing = read.count .opening ∧
    (∀ above (segment : List Operator) below,
      m.waiting = above ++ segment.map .operator ++ below →
        segment.Pairwise (fun upper lower => lower.precedence < upper.precedence) ∧
        segment.length ≤ 2) ∧
    m.waiting.length ≤ 3 * m.waiting.count .opening + 2 ∧
    ∀ incoming, ∃ acting : List Operator, acting.length ≤ 2 ∧
      acting.map .operator <+: m.waiting ∧
      m.step (.operator incoming) =
        (acting.foldlM (fun values op => Operator.reduce op values) m.values).map fun reduced =>
          ⟨reduced, .operator incoming :: m.waiting.drop acting.length⟩ := by
  have hascending : Machine.Ascending m.waiting :=
    Machine.Ascending.run (m := Machine.start) trivial h
  have hproper : ∀ t ∈ read, t.Proper := fun t ht =>
    Scan.proper_ofChars 0 expression.toList t (hread.subset ht)
  have htext : Textual.run expression ⟨[], []⟩ (read.map Token.text) = .ok (.ofMachine m) := by
    have hrun := Textual.run_text expression Machine.start hproper
    rw [h] at hrun
    exact hrun
  refine ⟨htext, fun _ => Textual.mem_operators_ofMachine, Machine.count_opening_of_run h, ?_,
    hascending.length_le_opened, ?_⟩
  · intro above segment below hwaiting
    have hpairwise := hascending.segment hwaiting
    exact ⟨hpairwise, Machine.length_le_two_of_pairwise hpairwise⟩
  · intro incoming
    refine ⟨Machine.acting incoming m.waiting, hascending.length_acting incoming,
      ⟨_, (Machine.eq_acting_append_drop incoming m.waiting).symm⟩, ?_⟩
    rw [Machine.step, Machine.settle_eq_foldlM]
    cases (Machine.acting incoming m.waiting).foldlM (fun values op => Operator.reduce op values)
      m.values <;> rfl

/-- Between the tokens of a text that is not well-formed, with one group open below and one above,
the incoming sum makes two operators act. -/
theorem waiting_of_run_groups :
    let read : List Token := [.number ['1'], .operator .subtract, .opening, .number ['2'],
      .number ['8'], .operator .add, .operator .divide]
    let m : Machine := ⟨[8, 2, 1],
      [.operator .divide, .operator .add, .opening, .operator .subtract]⟩
    read <+: (Scan.ofString "1-(2 8+/+)@").tokens ∧ Machine.start.run read = .ok m ∧
      m.waiting.length ≤ 5 ∧
      (([.divide, .add] : List Operator).Pairwise fun upper lower =>
        lower.precedence < upper.precedence) ∧
      Textual.run "1-(2 8+/+)@" ⟨[], []⟩ ["1", "-", "(", "2", "8", "+", "/"] =
        .ok ⟨[8, 2, 1], ["/", "+", "(", "-"]⟩ := by
  intro read m
  have hread : read <+: (Scan.ofString "1-(2 8+/+)@").tokens := by decide +kernel
  have hrun : Machine.start.run read = .ok m := rfl
  obtain ⟨htext, -, -, hsegments, hlength, -⟩ := waiting_of_run hread hrun
  exact ⟨hread, hrun, hlength, (hsegments [] [.divide, .add] _ rfl).1, htext⟩

end Reckoner

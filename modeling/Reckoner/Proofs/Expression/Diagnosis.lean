import Reckoner.Proofs.Expression.Conservation
import Reckoner.Proofs.Expression.Recognition

/-! What a reported fault tells about the text. The faults of groups show in the counts of the
parentheses, the faults of what is left at the end in the counts of literals and operators. -/
namespace Reckoner

namespace Token

/-- At no place have more groups been closed than opened. -/
def Nested (ts : List Token) : Prop :=
  ∀ read, read <+: ts → read.count .closing ≤ read.count .opening

/-- The parentheses of the tokens belong together in pairs. -/
def Balanced (ts : List Token) : Prop :=
  Nested ts ∧ ts.count .closing = ts.count .opening

end Token

namespace Fault

/-- The first nine letters of a description tell the kinds of faults apart. -/
def lead : Fault → String
  | divisionByZero => "Cannot di"
  | closingWithoutOpening => "Closing p"
  | openingNeverClosed => "Opening p"
  | missingOperand _ => "Operator "
  | empty => "Empty exp"
  | operandsLeft => "Operands "
  | strayCharacter _ _ => "Unexpecte"

theorem take_detail (fault : Fault) : fault.detail.toList.take 9 = fault.lead.toList := by
  have htake (first rest : String) (h : first.toList.length = 9) :
      (first ++ rest).toList.take 9 = first.toList := by
    rw [String.toList_append, ← h, List.take_left]
  cases fault with
  | missingOperand symbol =>
    show ("Operator " ++ Text.quote symbol ++ " is missing an operand").toList.take 9 = _
    rw [String.append_assoc]
    exact htake "Operator " _ rfl
  | strayCharacter c position =>
    show ("Unexpecte" ++ "d character " ++ Text.quote (String.singleton c) ++ " at position " ++
      String.ofList (Number.toDigits position)).toList.take 9 = _
    rw [String.append_assoc, String.append_assoc, String.append_assoc]
    exact htake "Unexpecte" _ rfl
  | _ => rfl

/-- Faults whose description is the same for every text. -/
def FixedDetail : Fault → Prop
  | missingOperand _ | strayCharacter _ _ => False
  | _ => True

theorem eq_of_detail_eq {fault known : Fault} (hknown : known.FixedDetail)
    (h : fault.detail = known.detail) : fault = known := by
  have hlead : fault.lead.toList = known.lead.toList := by
    rw [← take_detail, h, take_detail]
  rw [String.toList_inj] at hlead
  cases known with
  | missingOperand | strayCharacter => cases hknown
  | _ => cases fault <;> simp_all [lead]

end Fault

namespace Machine

theorem exists_step_of_run_eq_error {m : Machine} {ts : List Token} {fault : Fault}
    (h : m.run ts = .error fault) :
    ∃ read t rest next, ts = read ++ t :: rest ∧ m.run read = .ok next ∧
      next.step t = .error fault := by
  induction ts generalizing m with
  | nil => cases h
  | cons t rest ih =>
    cases hstep : m.step t with
    | error found =>
      rw [run, hstep] at h
      cases h
      exact ⟨[], t, rest, m, rfl, rfl, hstep⟩
    | ok next =>
      rw [run, hstep] at h
      obtain ⟨read, u, after, last, rfl, hrun, hu⟩ := ih h
      refine ⟨t :: read, u, after, last, rfl, ?_, hu⟩
      rw [run, hstep]
      exact hrun

/-- Within a group the closing parenthesis has an opening one to find. -/
theorem failsOnly_closeGroup_of_mem {waiting : List Waiting} (h : .opening ∈ waiting)
    (values : List Float) : FailsOnly Fault.OfReduction (closeGroup values waiting) := by
  induction waiting generalizing values with
  | nil => cases h
  | cons w rest ih =>
    cases w with
    | opening => exact .ok _
    | operator op =>
      have hrest : .opening ∈ rest := (List.mem_cons.mp h).resolve_left nofun
      exact (op.failsOnly_reduce values).bind (ih hrest)

theorem failsOnly_drain_of_not_mem {waiting : List Waiting} (h : .opening ∉ waiting)
    (values : List Float) : FailsOnly Fault.OfReduction (drain values waiting) := by
  induction waiting generalizing values with
  | nil => exact .ok _
  | cons w rest ih =>
    rw [List.mem_cons, not_or] at h
    obtain ⟨hw, hrest⟩ := h
    cases w with
    | opening => exact absurd rfl hw
    | operator op => exact (op.failsOnly_reduce values).bind (ih hrest)

theorem nested_of_run {ts : List Token} {m : Machine} (h : start.run ts = .ok m) :
    Token.Nested ts := by
  rintro read ⟨rest, rfl⟩
  rw [run_append] at h
  obtain ⟨next, hread, -⟩ := bind_eq_ok h
  have hcount := count_opening_of_run hread
  omega

theorem balanced_of_run {ts : List Token} {m : Machine} (h : start.run ts = .ok m)
    (ho : .opening ∉ m.waiting) : Token.Balanced ts := by
  have hcount := count_opening_of_run h
  rw [List.count_eq_zero.mpr ho] at hcount
  exact ⟨nested_of_run h, by omega⟩

theorem count_closing_lt_of_run {ts : List Token} {m : Machine} (h : start.run ts = .ok m)
    (ho : .opening ∈ m.waiting) : ts.count .closing < ts.count .opening := by
  have hcount := count_opening_of_run h
  have hpos : 0 < m.waiting.count .opening := List.count_pos_iff.mpr ho
  omega

/-- The run stops at a closing parenthesis only if that is one too many. -/
theorem exists_prefix_of_run {ts : List Token} (h : start.run ts = .error .closingWithoutOpening) :
    ∃ read, read <+: ts ∧ read.count .opening < read.count .closing := by
  obtain ⟨read, t, rest, next, rfl, hread, hstep⟩ := exists_step_of_run_eq_error h
  have ht : t = .closing := by
    cases t with
    | number digits => cases hstep
    | opening => cases hstep
    | closing => rfl
    | operator op => exact (failsOnly_step_operator next op _ hstep).elim
  subst ht
  have ho : .opening ∉ next.waiting := by
    intro ho
    exact (failsOnly_closeGroup_of_mem ho next.values _ hstep).elim
  have hcount := count_opening_of_run hread
  rw [List.count_eq_zero.mpr ho] at hcount
  have hopening : (read ++ [Token.closing]).count .opening = read.count .opening := by simp
  have hclosing : (read ++ [Token.closing]).count .closing = read.count .closing + 1 := by simp
  exact ⟨read ++ [.closing], ⟨rest, by simp⟩, by omega⟩

/-- Why the machine cannot finish: a group is open, a last operator fails, or the number of values
is wrong. -/
inductive Unfinished (m : Machine) : Fault → Prop
  | group (ho : .opening ∈ m.waiting) : Unfinished m .openingNeverClosed
  | reduction {fault : Fault} (ho : .opening ∉ m.waiting) (h : fault.OfReduction) :
      Unfinished m fault
  | nothing (ho : .opening ∉ m.waiting) (h : drain m.values m.waiting = .ok []) :
      Unfinished m .empty
  | tooMany {values : List Float} (ho : .opening ∉ m.waiting)
      (h : drain m.values m.waiting = .ok values) (hl : 2 ≤ values.length) :
      Unfinished m .operandsLeft

theorem unfinished_of_finish {m : Machine} {fault : Fault} (h : m.finish = .error fault) :
    Unfinished m fault := by
  unfold finish at h
  split at h
  · next ho =>
    cases h
    exact .group (List.contains_iff_mem.mp ho)
  · next ho =>
    rw [List.contains_iff_mem] at ho
    cases hd : drain m.values m.waiting with
    | error found =>
      rw [hd] at h
      cases h
      exact .reduction ho (failsOnly_drain_of_not_mem ho m.values _ hd)
    | ok values =>
      rw [hd] at h
      rcases values with _ | ⟨value, _ | ⟨other, rest⟩⟩
      · cases h
        exact .nothing ho hd
      · cases h
      · cases h
        exact .tooMany ho hd (by simp)

/-- Parentheses alone leave the values as they are and open and close groups one by one. -/
theorem run_parentheses {ts : List Token} (opened left : Nat) (hl : Token.literals ts = [])
    (ho : Token.operators ts = [])
    (hn : ∀ read, read <+: ts → read.count .closing ≤ opened + read.count .opening)
    (hleft : opened + ts.count .opening = left + ts.count .closing) (values : List Float) :
    (Machine.mk values (List.replicate opened .opening)).run ts =
      .ok ⟨values, List.replicate left .opening⟩ := by
  induction ts generalizing opened with
  | nil =>
    have heq : opened = left := by simpa using hleft
    rw [heq]
    rfl
  | cons t rest ih =>
    have hnext (read : List Token) (h : read <+: rest) :
        (t :: read).count .closing ≤ opened + (t :: read).count .opening :=
      hn _ ((List.prefix_cons_inj t).mpr h)
    cases t with
    | number digits => cases hl
    | operator op => cases ho
    | opening =>
      have hopened (ts : List Token) :
          (Token.opening :: ts).count .opening = ts.count .opening + 1 := List.count_cons_self
      have hclosed (ts : List Token) :
          (Token.opening :: ts).count .closing = ts.count .closing := by simp
      rw [hopened, hclosed] at hleft
      refine ih (opened + 1) hl ho ?_ (by omega)
      intro read h
      have hle := hnext read h
      rw [hopened, hclosed] at hle
      omega
    | closing =>
      have hopened (ts : List Token) :
          (Token.closing :: ts).count .opening = ts.count .opening := by simp
      have hclosed (ts : List Token) :
          (Token.closing :: ts).count .closing = ts.count .closing + 1 := List.count_cons_self
      have hfirst := hnext [] List.nil_prefix
      rw [hopened, hclosed, List.count_nil, List.count_nil] at hfirst
      rw [hopened, hclosed] at hleft
      obtain ⟨opened, rfl⟩ : ∃ n, opened = n + 1 := Nat.exists_eq_add_one.mpr (by omega)
      refine ih opened hl ho ?_ (by omega)
      intro read h
      have hle := hnext read h
      rw [hopened, hclosed] at hle
      omega

end Machine

section Compute

variable {expression : String}

/-- A text that the machine has read to its end, with no group left open. -/
theorem legal_and_balanced_of_run {m : Machine}
    (hrun : Machine.start.run (Scan.ofString expression).tokens = .ok m)
    (hstray : (Scan.ofString expression).stray? = none) (ho : .opening ∉ m.waiting) :
    Text.Legal expression.toList ∧ Token.Balanced (Scan.ofString expression).tokens :=
  ⟨Scan.stray?_eq_none_iff.mp hstray, Machine.balanced_of_run hrun ho⟩

/-- A fault that no token brings about is found once the whole text has been read. -/
theorem unfinished_of_compute {fault : Fault} (h : compute expression = .error fault)
    (hlate : ¬fault.OfRun) (hplace : fault.position? = none) :
    ∃ m, Machine.start.run (Scan.ofString expression).tokens = .ok m ∧
      (Scan.ofString expression).stray? = none ∧ Machine.Unfinished m fault := by
  rcases compute_eq_error_iff.mp h with hrun | ⟨m, hrun, ⟨c, position, -, rfl⟩ | ⟨hstray, hfinish⟩⟩
  · exact absurd (Machine.failsOnly_run _ _ _ hrun) hlate
  · cases hplace
  · exact ⟨m, hrun, hstray, Machine.unfinished_of_finish hfinish⟩

theorem exists_prefix_of_compute (h : compute expression = .error .closingWithoutOpening) :
    ∃ read, read <+: (Scan.ofString expression).tokens ∧
      read.count .opening < read.count .closing := by
  rcases compute_eq_error_iff.mp h with hrun | ⟨m, -, ⟨c, position, -, hfault⟩ | ⟨-, hfinish⟩⟩
  · exact Machine.exists_prefix_of_run hrun
  · cases hfault
  · cases Machine.unfinished_of_finish hfinish with
    | reduction _ hr => exact hr.elim

theorem unclosed_of_compute (h : compute expression = .error .openingNeverClosed) :
    Text.Legal expression.toList ∧ Token.Nested (Scan.ofString expression).tokens ∧
      (Scan.ofString expression).tokens.count .closing <
        (Scan.ofString expression).tokens.count .opening := by
  obtain ⟨m, hrun, hstray, hfault⟩ := unfinished_of_compute h
    (by simp [Fault.OfRun, Fault.OfReduction]) rfl
  cases hfault with
  | reduction _ hr => exact hr.elim
  | group ho =>
    exact ⟨Scan.stray?_eq_none_iff.mp hstray, Machine.nested_of_run hrun,
      Machine.count_closing_lt_of_run hrun ho⟩

theorem legal_and_balanced_of_compute {value : Float} (h : compute expression = .ok value) :
    Text.Legal expression.toList ∧ Token.Balanced (Scan.ofString expression).tokens := by
  obtain ⟨m, hrun, hstray, hfinish⟩ := compute_eq_ok_iff.mp h
  refine legal_and_balanced_of_run hrun hstray ?_
  intro ho
  rw [Machine.finish, if_pos (List.contains_iff_mem.mpr ho)] at hfinish
  cases hfinish

theorem no_tokens_of_compute (h : compute expression = .error .empty) :
    (Text.Legal expression.toList ∧ Token.Balanced (Scan.ofString expression).tokens) ∧
      Token.literals (Scan.ofString expression).tokens = [] ∧
      Token.operators (Scan.ofString expression).tokens = [] := by
  obtain ⟨m, hrun, hstray, hfault⟩ := unfinished_of_compute h
    (by simp [Fault.OfRun, Fault.OfReduction]) rfl
  cases hfault with
  | reduction _ hr => exact hr.elim
  | nothing ho hd =>
    -- No value is left, so there is no tree that could have taken anything up.
    obtain ⟨forest, hvalues, hleaves, hoperators⟩ := Machine.exists_grown_of_drain hrun hd
    obtain rfl : forest = [] := List.eq_nil_of_length_eq_zero hvalues.length_eq
    exact ⟨legal_and_balanced_of_run hrun hstray ho, hleaves.symm, List.nil_perm.mp hoperators⟩

theorem compute_of_parentheses (hlegal : Text.Legal expression.toList)
    (hbalanced : Token.Balanced (Scan.ofString expression).tokens)
    (hl : Token.literals (Scan.ofString expression).tokens = [])
    (ho : Token.operators (Scan.ofString expression).tokens = []) :
    compute expression = .error .empty := by
  obtain ⟨hnested, hcount⟩ := hbalanced
  have hstray : (Scan.ofString expression).stray? = none := Scan.stray?_eq_none_iff.mpr hlegal
  have hrun : Machine.start.run (Scan.ofString expression).tokens = .ok Machine.start := by
    refine Machine.run_parentheses 0 0 hl ho ?_ (by omega) []
    intro read hread
    have hle := hnested read hread
    omega
  exact compute_eq_error_iff.mpr (.inr ⟨_, hrun, .inr ⟨hstray, rfl⟩⟩)

theorem surplus_of_compute (h : compute expression = .error .operandsLeft) :
    (Text.Legal expression.toList ∧ Token.Balanced (Scan.ofString expression).tokens) ∧
      (Token.operators (Scan.ofString expression).tokens).length + 2 ≤
        (Token.literals (Scan.ofString expression).tokens).length := by
  obtain ⟨m, hrun, hstray, hfault⟩ := unfinished_of_compute h
    (by simp [Fault.OfRun, Fault.OfReduction]) rfl
  cases hfault with
  | reduction _ hr => exact hr.elim
  | tooMany ho hd hlength =>
    obtain ⟨forest, hg⟩ := Machine.exists_grown_of_drain hrun hd
    have hcount := hg.length_literals
    exact ⟨legal_and_balanced_of_run hrun hstray ho, by omega⟩

end Compute

/-- An expression has no value, for the reason that the text describes. -/
def Raises (expression detail : String) : Prop :=
  ∃ fault, compute expression = .error fault ∧ fault.detail = detail

theorem raises_iff {expression : String} (fault : Fault) (h : fault.FixedDetail) :
    Raises expression fault.detail ↔ compute expression = .error fault := by
  constructor
  · rintro ⟨found, hfound, hdetail⟩
    rw [hfound, Fault.eq_of_detail_eq h hdetail]
  · intro hfault
    exact ⟨fault, hfault, rfl⟩

/-- The descriptions of faults say what is the case. A closing parenthesis is reported as one too
many, an opening one as never closed, a text as empty or as having operands left only if counting
its tokens shows this, and what the counts rule out never gets a value. -/
theorem diagnosis_truthful (expression : String) :
    let tokens := (Scan.ofString expression).tokens
    let Legal := Text.Legal expression.toList
    (Raises expression "Closing parenthesis without a matching '('" →
      ∃ read, read <+: tokens ∧ read.count .opening < read.count .closing) ∧
    (Raises expression "Opening parenthesis is never closed" →
      Legal ∧ Token.Nested tokens ∧ tokens.count .closing < tokens.count .opening) ∧
    (Legal → Token.Balanced tokens → ∀ fault, compute expression = .error fault →
      fault.kind ≠ .unbalancedParentheses) ∧
    (¬(Legal ∧ Token.Balanced tokens) → ∀ value, compute expression ≠ .ok value) ∧
    (Raises expression "Empty expression" ↔
      Legal ∧ Token.Balanced tokens ∧ Token.literals tokens = [] ∧ Token.operators tokens = []) ∧
    (Raises expression "Operands left without an operator" →
      Legal ∧ Token.Balanced tokens ∧
        (Token.operators tokens).length + 2 ≤ (Token.literals tokens).length) ∧
    (Legal → Token.Balanced tokens →
      (Token.operators tokens).length + 2 ≤ (Token.literals tokens).length →
      ∀ value, compute expression ≠ .ok value) := by
  intro tokens Legal
  refine ⟨?_, ?_, ?_, ?_, ?_, ?_, ?_⟩
  · intro h
    exact exists_prefix_of_compute ((raises_iff .closingWithoutOpening trivial).mp h)
  · intro h
    exact unclosed_of_compute ((raises_iff .openingNeverClosed trivial).mp h)
  · rintro - ⟨hnested, hcount⟩ fault hfault hkind
    cases fault with
    | closingWithoutOpening =>
      obtain ⟨read, hread, hlt⟩ := exists_prefix_of_compute hfault
      have hle := hnested read hread
      omega
    | openingNeverClosed =>
      obtain ⟨-, -, hlt⟩ := unclosed_of_compute hfault
      exact absurd hcount (Nat.ne_of_lt hlt)
    | divisionByZero | missingOperand | empty | operandsLeft | strayCharacter => cases hkind
  · intro hnot value hvalue
    exact hnot (legal_and_balanced_of_compute hvalue)
  · constructor
    · intro h
      obtain ⟨⟨hlegal, hbalanced⟩, hnone⟩ :=
        no_tokens_of_compute ((raises_iff .empty trivial).mp h)
      exact ⟨hlegal, hbalanced, hnone⟩
    · rintro ⟨hlegal, hbalanced, hl, ho⟩
      exact ⟨.empty, compute_of_parentheses hlegal hbalanced hl ho, rfl⟩
  · intro h
    obtain ⟨⟨hlegal, hbalanced⟩, hcount⟩ :=
      surplus_of_compute ((raises_iff .operandsLeft trivial).mp h)
    exact ⟨hlegal, hbalanced, hcount⟩
  · intro _ _ hcount value hvalue
    have hone : (Token.literals tokens).length = (Token.operators tokens).length + 1 :=
      length_literals_of_compute hvalue
    omega

/-- Two operands in balanced parentheses with nothing between them, and the three other reports on
texts that differ from a balanced one by a parenthesis or by the operands. -/
theorem diagnosis_truthful_operands :
    Token.Balanced (Scan.ofString "(1) 2").tokens ∧
      (∃ read, read <+: (Scan.ofString "(1))").tokens ∧
        read.count .opening < read.count .closing) ∧
      Token.Nested (Scan.ofString "((1)").tokens ∧
      Token.Balanced (Scan.ofString "(())").tokens ∧
      compute "(1) 2" ≠ .ok 1 := by
  have hclosing : Raises "(1))" "Closing parenthesis without a matching '('" :=
    ⟨.closingWithoutOpening, rfl, rfl⟩
  have hopening : Raises "((1)" "Opening parenthesis is never closed" :=
    ⟨.openingNeverClosed, rfl, rfl⟩
  have hleft : Raises "(1) 2" "Operands left without an operator" := ⟨.operandsLeft, rfl, rfl⟩
  obtain ⟨hunopened, -⟩ := diagnosis_truthful "(1))"
  obtain ⟨-, hunclosed, -⟩ := diagnosis_truthful "((1)"
  obtain ⟨-, -, -, -, hempty, -⟩ := diagnosis_truthful "(())"
  obtain ⟨-, -, -, -, -, hsurplus, hnone⟩ := diagnosis_truthful "(1) 2"
  obtain ⟨hlegal, hbalanced, hcount⟩ := hsurplus hleft
  have hgroups : Raises "(())" "Empty expression" := ⟨.empty, rfl, rfl⟩
  exact ⟨hbalanced, hunopened hclosing, (hunclosed hopening).2.1, (hempty.mp hgroups).2.1,
    hnone hlegal hbalanced hcount 1⟩

end Reckoner

import Reckoner.Expression.Machine

/-! Which faults the parts of the evaluator can find. Only the scan finds stray characters. -/
namespace Reckoner

/-- Every failure of `x` satisfies `S`. -/
def FailsOnly {α : Type} (S : Fault → Prop) (x : Except Fault α) : Prop :=
  ∀ fault, x = .error fault → S fault

namespace FailsOnly

variable {α β : Type} {S T : Fault → Prop}

theorem ok (a : α) : FailsOnly S (.ok a) := by
  intro fault h
  cases h

theorem error {fault : Fault} (h : S fault) : FailsOnly S (.error fault : Except Fault α) := by
  intro other he
  cases he
  exact h

theorem mono {x : Except Fault α} (h : FailsOnly S x) (hST : ∀ fault, S fault → T fault) :
    FailsOnly T x :=
  fun fault he => hST fault (h fault he)

theorem bind {x : Except Fault α} {f : α → Except Fault β} (hx : FailsOnly S x)
    (hf : ∀ a, FailsOnly S (f a)) : FailsOnly S (x >>= f) := by
  cases x with
  | error fault => exact error (hx fault rfl)
  | ok a => exact hf a

end FailsOnly

namespace Fault

def OfReduction : Fault → Prop
  | divisionByZero | missingOperand _ => True
  | _ => False

/-- What can be found before the end of an expression. -/
def OfRun (fault : Fault) : Prop := fault.OfReduction ∨ fault = closingWithoutOpening

/-- What can be found at the end of an expression only, and the faults of its last reductions. -/
def OfFinish (fault : Fault) : Prop :=
  fault.OfReduction ∨ fault = openingNeverClosed ∨ fault = empty ∨ fault = operandsLeft

theorem OfRun.position? {fault : Fault} (h : fault.OfRun) : fault.position? = none := by
  cases fault <;> simp_all [OfRun, OfReduction, Fault.position?]

theorem OfFinish.position? {fault : Fault} (h : fault.OfFinish) : fault.position? = none := by
  cases fault <;> simp_all [OfFinish, OfReduction, Fault.position?]

end Fault

theorem Operator.failsOnly_reduce (op : Operator) (values : List Float) :
    FailsOnly Fault.OfReduction (op.reduce values) := by
  intro fault h
  rcases values with _ | ⟨b, _ | ⟨a, rest⟩⟩
  · cases h
    trivial
  · cases h
    trivial
  · simp only [reduce] at h
    cases happly : op.apply a b with
    | some value => simp [happly] at h
    | none =>
      simp only [happly] at h
      cases h
      trivial

namespace Machine

theorem failsOnly_settle (incoming : Operator) (values : List Float) (waiting : List Waiting) :
    FailsOnly Fault.OfReduction (settle incoming values waiting) := by
  induction waiting generalizing values with
  | nil => exact .ok _
  | cons w rest ih =>
    cases w with
    | opening => exact .ok _
    | operator op =>
      simp only [settle]
      split
      · exact (op.failsOnly_reduce values).bind ih
      · exact .ok _

theorem failsOnly_closeGroup (values : List Float) (waiting : List Waiting) :
    FailsOnly Fault.OfRun (closeGroup values waiting) := by
  induction waiting generalizing values with
  | nil => exact .error (.inr rfl)
  | cons w rest ih =>
    cases w with
    | opening => exact .ok _
    | operator op => exact ((op.failsOnly_reduce values).mono fun _ => .inl).bind ih

theorem failsOnly_drain (values : List Float) (waiting : List Waiting) :
    FailsOnly Fault.OfFinish (drain values waiting) := by
  induction waiting generalizing values with
  | nil => exact .ok _
  | cons w rest ih =>
    cases w with
    | opening => exact .error (.inr (.inl rfl))
    | operator op => exact ((op.failsOnly_reduce values).mono fun _ => .inl).bind ih

theorem failsOnly_step_operator (m : Machine) (op : Operator) :
    FailsOnly Fault.OfReduction (m.step (.operator op)) :=
  (failsOnly_settle op m.values m.waiting).bind fun _ => .ok _

theorem failsOnly_step (m : Machine) (t : Token) : FailsOnly Fault.OfRun (m.step t) := by
  cases t with
  | number digits => exact .ok _
  | opening => exact .ok _
  | closing => exact failsOnly_closeGroup m.values m.waiting
  | operator op => exact (failsOnly_step_operator m op).mono fun _ => .inl

theorem failsOnly_run (m : Machine) (ts : List Token) : FailsOnly Fault.OfRun (m.run ts) := by
  induction ts generalizing m with
  | nil => exact .ok _
  | cons t rest ih => exact (failsOnly_step m t).bind ih

theorem failsOnly_finish (m : Machine) : FailsOnly Fault.OfFinish m.finish := by
  unfold finish
  split
  · exact .error (.inr (.inl rfl))
  · refine (failsOnly_drain m.values m.waiting).bind fun values => ?_
    rcases values with _ | ⟨value, _ | ⟨other, rest⟩⟩
    · exact .error (.inr (.inr (.inl rfl)))
    · exact .ok _
    · exact .error (.inr (.inr (.inr rfl)))

end Machine

/-- A fault is found while the tokens are read, or is the stray character that ends the scan, or is
found at the end of a text without one. -/
theorem compute_eq_error_iff {expression : String} {fault : Fault} :
    compute expression = .error fault ↔
      Machine.start.run (Scan.ofString expression).tokens = .error fault ∨
      ∃ m, Machine.start.run (Scan.ofString expression).tokens = .ok m ∧
        ((∃ c position, (Scan.ofString expression).stray? = some (c, position) ∧
          fault = .strayCharacter c position) ∨
        ((Scan.ofString expression).stray? = none ∧ m.finish = .error fault)) := by
  unfold compute Scan.value Scan.machine
  cases Machine.start.run (Scan.ofString expression).tokens with
  | error earlier => simp [bind, Except.bind]
  | ok m =>
    cases (Scan.ofString expression).stray? with
    | none => simp [bind, Except.bind]
    | some stray =>
      obtain ⟨c, position⟩ := stray
      constructor
      · intro h
        cases h
        exact .inr ⟨m, rfl, .inl ⟨c, position, rfl, rfl⟩⟩
      · rintro (h | ⟨_, -, ⟨c, position, hstray, rfl⟩ | ⟨hstray, -⟩⟩)
        · cases h
        · cases hstray
          rfl
        · cases hstray

/-- A fault with a place is the stray character that ends the scan. -/
theorem stray?_of_compute_error {expression : String} {fault : Fault}
    (h : compute expression = .error fault) (hplace : fault.position?.isSome = true) :
    ∃ c position, fault = .strayCharacter c position ∧
      (Scan.ofString expression).stray? = some (c, position) := by
  rcases compute_eq_error_iff.mp h with hrun | ⟨m, -, ⟨c, position, hstray, rfl⟩ | ⟨-, hfinish⟩⟩
  · rw [(Machine.failsOnly_run _ _ _ hrun).position?] at hplace
    cases hplace
  · exact ⟨c, position, rfl, hstray⟩
  · rw [(Machine.failsOnly_finish m _ hfinish).position?] at hplace
    cases hplace

theorem kind_ne_invalidCharacter {expression : String} {fault : Fault}
    (h : compute expression = .error fault) (hstray : (Scan.ofString expression).stray? = none) :
    fault.kind ≠ .invalidCharacter := by
  intro hkind
  obtain ⟨c, position, -, hsome⟩ :=
    stray?_of_compute_error h (fault.isSome_position?_iff.mpr hkind)
  rw [hstray] at hsome
  cases hsome

end Reckoner

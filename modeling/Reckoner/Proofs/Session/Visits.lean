import Reckoner.Session

/-! The steps of a session, each with the session that it is taken in. What every step keeps holds
whenever a step is taken and after it. -/
namespace Reckoner.Session

def visits (s : Session) : List Step → List (Session × Step)
  | [] => []
  | step :: rest => (s, step) :: (s.step step).1.visits rest

theorem trace_eq_map_visits (s : Session) (steps : List Step) :
    s.trace steps = (s.visits steps).map fun visit => visit.1.step visit.2 := by
  induction steps generalizing s with
  | nil => rfl
  | cons step rest ih => simp only [trace, visits, List.map_cons, ih]

@[simp] theorem display_step (s : Session) (step : Step) :
    (s.step step).1.display = (respond s.display step).result := by
  cases step <;> rfl

@[simp] theorem lines_step (s : Session) (step : Step) :
    (s.step step).2.lines = s.logger.lines (respond s.display step).events := by
  cases step <;> rfl

section Invariant

variable {P : Display → Prop} {steps : List Step}
  (hstep : ∀ display, P display → ∀ step ∈ steps, P (respond display step).result)

include hstep

theorem invariant_visits {s : Session} (hs : P s.display) :
    ∀ visit ∈ s.visits steps, P visit.1.display ∧ visit.2 ∈ steps := by
  induction steps generalizing s with
  | nil => exact fun _ h => nomatch h
  | cons step rest ih =>
    have hnext : P (s.step step).1.display := by
      rw [display_step]
      exact hstep s.display hs step (by simp)
    intro visit hvisit
    rcases List.mem_cons.mp hvisit with rfl | hvisit
    · exact ⟨hs, by simp⟩
    · obtain ⟨hP, hmem⟩ := ih (fun display hP later hlater =>
        hstep display hP later (List.mem_cons_of_mem step hlater)) hnext visit hvisit
      exact ⟨hP, List.mem_cons_of_mem step hmem⟩

theorem invariant_trace {s : Session} (hs : P s.display) :
    ∀ entry ∈ s.trace steps, P entry.1.display := by
  rw [trace_eq_map_visits]
  intro entry hentry
  obtain ⟨visit, hvisit, rfl⟩ := List.mem_map.mp hentry
  obtain ⟨hP, hmem⟩ := invariant_visits hstep hs visit hvisit
  rw [display_step]
  exact hstep visit.1.display hP visit.2 hmem

end Invariant

end Reckoner.Session

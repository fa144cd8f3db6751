import Mathlib.Data.List.Forall2
import Reckoner.Proofs.Session.Logging

/-! Two sessions that differ in nothing but the levels of their loggers. They show the same, and the
one with the higher threshold writes those records of the other that reach it. What a session shows
is also what it shows without any configuration. -/
namespace Reckoner

namespace Log

/-- The severity that a record gives in front. -/
def Severity.ofLine? (record : String) : Option Severity :=
  [debug, info].find? fun s => ("[" ++ s.name ++ "] ").toList.isPrefixOf record.toList

/-- The severity that a record gives is at least a threshold. -/
def reaches (threshold : Int) (record : String) : Bool :=
  (Severity.ofLine? record).any (threshold ≤ ·.level)

namespace Logger

@[simp] theorem ofLine?_line (e : Event) : Severity.ofLine? (line e) = some e.severity := by
  have hline : (line e).toList =
      ("[" ++ e.severity.name ++ "] ").toList ++ (loggerName ++ ": " ++ e.text).toList := by
    simp [line]
  unfold Severity.ofLine?
  rw [hline]
  cases e.severity with
  | debug => rfl
  | info => rfl

theorem linesOf_of_threshold_le {l m : Logger} (hhandlers : l.handlers = m.handlers)
    (h : l.threshold ≤ m.threshold) (e : Event) :
    m.linesOf e = (l.linesOf e).filter (reaches m.threshold) := by
  have hreaches : reaches m.threshold (line e) = decide (m.threshold ≤ e.severity.level) := by
    rw [reaches, ofLine?_line, Option.any_some]
  unfold linesOf
  by_cases hm : m.threshold ≤ e.severity.level
  · have hl : l.threshold ≤ e.severity.level := by omega
    rw [if_pos hm, if_pos hl, List.filter_replicate, hreaches, decide_eq_true hm, if_pos rfl,
      hhandlers]
  · rw [if_neg hm]
    split
    · rw [List.filter_replicate, hreaches, decide_eq_false hm, if_neg (by simp)]
    · rfl

theorem lines_of_threshold_le {l m : Logger} (hhandlers : l.handlers = m.handlers)
    (h : l.threshold ≤ m.threshold) (events : List Event) :
    m.lines events = (l.lines events).filter (reaches m.threshold) := by
  unfold lines
  rw [List.filter_flatMap]
  exact congrArg (events.flatMap ·) (funext (linesOf_of_threshold_le hhandlers h))

end Logger

end Log

/-- The same step, or two configurations. -/
inductive Step.Alike : Step → Step → Prop
  | refl (step : Step) : Alike step step
  | configure (level other : Log.LevelChoice) : Alike (.configure level) (.configure other)

theorem Step.Alike.respond {a b : Step} (h : a.Alike b) (display : Display) :
    Session.respond display a = Session.respond display b := by
  cases h with
  | refl => rfl
  | configure level other => rfl

theorem Step.Alike.configures {a b : Step} (h : a.Alike b) : a.configures = b.configures := by
  cases h with
  | refl => rfl
  | configure level other => rfl

namespace Session

/-- What can be seen of a step besides the log. -/
def shown (entry : Session × StepReport) : Display × Option Outcome :=
  (entry.1.display, entry.2.outcome?)

/-- Sessions that differ at most in the levels of their loggers. -/
structure Alike (s t : Session) : Prop where
  display : s.display = t.display
  handlers : s.logger.handlers = t.logger.handlers

theorem outcome?_step_of_alike (s t : Session) {a b : Step} (h : a.Alike b) :
    (s.step a).2.outcome? = (t.step b).2.outcome? := by
  cases h with
  | refl => cases a <;> rfl
  | configure level other => rfl

namespace Alike

variable {s t : Session} (h : s.Alike t)

include h

theorem step {a b : Step} (hstep : a.Alike b) : (s.step a).1.Alike (t.step b).1 where
  display := by rw [display_step, display_step, h.display, hstep.respond]
  handlers := by rw [handlers_step, handlers_step, h.handlers, hstep.configures]

theorem shown_step {a b : Step} (hstep : a.Alike b) : shown (s.step a) = shown (t.step b) :=
  Prod.ext (h.step hstep).display (outcome?_step_of_alike s t hstep)

theorem lines_step_of_threshold_le {a b : Step} (hstep : a.Alike b)
    (hle : s.logger.threshold ≤ t.logger.threshold) :
    (t.step b).2.lines = (s.step a).2.lines.filter (Log.reaches t.logger.threshold) := by
  rw [lines_step, lines_step, h.display, hstep.respond]
  exact Log.Logger.lines_of_threshold_le h.handlers hle _

theorem shown_trace {steps others : List Step} (hsteps : List.Forall₂ Step.Alike steps others) :
    (s.trace steps).map shown = (t.trace others).map shown := by
  induction hsteps generalizing s t with
  | nil => rfl
  | cons hstep _ ih => exact congrArg₂ List.cons (h.shown_step hstep) (ih (h.step hstep))

theorem lines_trace {steps others : List Step} (hsteps : List.Forall₂ Step.Alike steps others)
    {i : Nat} {entry other : Session × StepReport} (hentry : (s.trace steps)[i]? = some entry)
    (hother : (t.trace others)[i]? = some other)
    (hle : (s.after (steps.take i)).logger.threshold ≤
      (t.after (others.take i)).logger.threshold) :
    other.2.lines =
      entry.2.lines.filter (Log.reaches (t.after (others.take i)).logger.threshold) := by
  induction hsteps generalizing s t i with
  | nil => cases hentry
  | cons hstep _ ih =>
    cases i with
    | zero =>
      cases hentry
      cases hother
      exact h.lines_step_of_threshold_le hstep hle
    | succ i => exact ih (h.step hstep) hentry hother hle

end Alike

/-- The steps of a session, each with what can be seen of it besides the log. -/
def course (s : Session) (steps : List Step) : List (Step × Display × Option Outcome) :=
  (s.visits steps).map fun visit => (visit.2, shown (visit.1.step visit.2))

theorem display_step_of_configures (s : Session) {step : Step} (h : step.configures = true) :
    (s.step step).1.display = s.display := by
  cases step with
  | configure level => rfl
  | press | keys | set | evaluate => cases h

/-- The steps that configure nothing take the same course without the others. -/
theorem course_filter {s t : Session} (h : s.display = t.display) (steps : List Step) :
    (s.course steps).filter (!·.1.configures) = t.course (steps.filter (!·.configures)) := by
  induction steps generalizing s t with
  | nil => rfl
  | cons step rest ih =>
    have hcons : s.course (step :: rest) =
        (step, shown (s.step step)) :: (s.step step).1.course rest := rfl
    rw [hcons, List.filter_cons, List.filter_cons]
    cases hstep : step.configures with
    | true => exact ih ((s.display_step_of_configures hstep).trans h)
    | false =>
      have hdisplay : (s.step step).1.display = (t.step step).1.display := by
        rw [display_step, display_step, h]
      have hshown : shown (s.step step) = shown (t.step step) :=
        Prod.ext hdisplay (outcome?_step_of_alike s t (.refl step))
      exact congrArg₂ List.cons (congrArg (Prod.mk step) hshown) (ih hdisplay)

/-- Of two sessions with the same steps but for the levels that are asked for, every step leaves the
same display and has the same outcome, also where the logger takes a level in one of them only. If
the threshold of the first is no higher, the second writes those records of the first that reach
its own threshold, in their order. All this can also be seen of the steps if the configurations are
left out. -/
theorem levels_only_filter {s t : Session} (h : s.Alike t) {steps others : List Step}
    (hsteps : List.Forall₂ Step.Alike steps others) :
    (s.trace steps).map shown = (t.trace others).map shown ∧
    (∀ i entry other, (s.trace steps)[i]? = some entry → (t.trace others)[i]? = some other →
      let low := (s.after (steps.take i)).logger.threshold
      let high := (t.after (others.take i)).logger.threshold
      low ≤ high → other.2.lines = entry.2.lines.filter (Log.reaches high)) ∧
    (s.course steps).filter (!·.1.configures) = t.course (steps.filter (!·.configures)) :=
  ⟨h.shown_trace hsteps, fun _ _ _ hentry hother hle => h.lines_trace hsteps hentry hother hle,
    course_filter h.display steps⟩

/-- A failure is written at both levels, the presses before it only at the lower one. The second
session goes on after a level that it does not take. -/
theorem levels_only_filter_failure :
    let steps := [.configure (.name "debug"), .keys "1/0=", .configure .unset, .evaluate "2+3"]
    let others := [.configure (.name "info"), .keys "1/0=", .configure (.name "_styles"),
      .evaluate "2+3"]
    List.Forall₂ Step.Alike steps others ∧
    (({} : Session).trace steps).map shown = (({} : Session).trace others).map shown ∧
    ∃ entry other, (({} : Session).trace steps)[1]? = some entry ∧
      (({} : Session).trace others)[1]? = some other ∧
      other.2.lines = entry.2.lines.filter (Log.reaches 20) ∧
      entry.2.lines.length = 6 ∧ other.2.lines =
        ["[INFO] basic_calculator: 🧮❌ Rejected '1/0': DivisionByZero: Cannot divide by zero"] := by
  intro steps others
  have hsteps : List.Forall₂ Step.Alike steps others :=
    .cons (.configure _ _) (.cons (.refl _) (.cons (.configure _ _) (.cons (.refl _) .nil)))
  obtain ⟨hshown, hlines, -⟩ := levels_only_filter (s := {}) (t := {}) ⟨rfl, rfl⟩ hsteps
  have hfilter := hlines 1 _ _ rfl rfl (by decide)
  exact ⟨hsteps, hshown, _, _, rfl, rfl, hfilter, by decide +kernel, by decide +kernel⟩

end Session

end Reckoner

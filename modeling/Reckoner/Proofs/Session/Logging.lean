import Reckoner.Proofs.Keypad.Reports
import Reckoner.Proofs.Session.Visits

/-! What a session writes to its log. The buttons that a step presses and the expressions that it
evaluates tell which records it emits; of these the ones that reach the threshold are written, once
each and in their order, as soon as the logger has been configured. -/
namespace Reckoner

namespace Outcome

def failure? : Outcome → Option Failure
  | success _ => none
  | failure f => some f

end Outcome

namespace Log

/-- A record as it is emitted, before it is laid out. -/
structure Record where
  severity : Severity
  text : String
  deriving DecidableEq, Repr

def Record.line (r : Record) : String :=
  "[" ++ r.severity.name ++ "] " ++ loggerName ++ ": " ++ r.text

def Event.record (e : Event) : Record := ⟨e.severity, e.text⟩

def buttonRecord (label input : String) : Record :=
  ⟨.debug, "🔘 Button " ++ Text.quote label ++ " pressed with input " ++ Text.quote input⟩

def startRecord (expression : String) : Record :=
  ⟨.debug, "🧮🏁 Evaluating " ++ Text.quote expression⟩

def rejectionRecord (f : Failure) : Record :=
  ⟨.info, "🧮❌ Rejected " ++ Text.quote f.expression ++ ": " ++ (f.kind.name ++ ": " ++ f.detail)⟩

/-- A success serves debugging, a failure is informative. -/
def outcomeRecord : Outcome → Record
  | .success s =>
    ⟨.debug, "🧮✅ " ++ Text.quote s.expression ++ " = " ++ Number.numeral s.value⟩
  | .failure f => rejectionRecord f

def evaluationRecords (expression : String) : List Record :=
  [startRecord expression, outcomeRecord (.ofExpression expression)]

/-- A button that is pressed while there is some input, or an expression that is evaluated without
a button. -/
inductive Action where
  | press (label input : String)
  | evaluate (expression : String)
  deriving DecidableEq, Repr

namespace Action

def button? : Action → Option Record
  | press label input => some (buttonRecord label input)
  | evaluate _ => none

/-- Only one button asks for a value. -/
def evaluated? : Action → Option String
  | press label input => if label = "=" then some input else none
  | evaluate expression => some expression

def records (action : Action) : List Record :=
  action.button?.toList ++ action.evaluated?.toList.flatMap evaluationRecords

def failure? (action : Action) : Option Failure :=
  action.evaluated?.bind fun expression => (Outcome.ofExpression expression).failure?

end Action

@[simp] theorem records_evaluate (expression : String) :
    (evaluate expression).events.map Event.record = evaluationRecords expression := by
  unfold evaluate evaluationRecords Outcome.ofExpression
  cases compute expression <;> rfl

@[simp] theorem records_press (label input : String) :
    (Keypad.press label input).events.map Event.record = (Action.press label input).records := by
  by_cases he : label = "="
  · subst he
    have hpress := congrArg Logged.events (Keypad.press_equals input)
    change (Keypad.press "=" input).events = _ at hpress
    rw [hpress, List.map_cons, records_evaluate]
    rfl
  · have hrecords : (Action.press label input).records = [buttonRecord label input] := by
      rw [Action.records, Action.evaluated?, if_neg he]
      rfl
    rw [hrecords]
    by_cases hc : label = "C"
    · subst hc
      rfl
    · rw [Keypad.press_of_ne hc he]
      rfl

/-- The informative records of an action are its failure. -/
theorem info_records (action : Action) :
    action.records.filter (·.severity = .info) = action.failure?.toList.map rejectionRecord := by
  have hbutton : action.button?.toList.filter (·.severity = .info) = [] := by
    cases action <;> rfl
  rw [Action.records, List.filter_append, hbutton, List.nil_append, Action.failure?]
  cases action.evaluated? with
  | none => rfl
  | some expression =>
    simp only [Option.toList_some, List.flatMap_singleton, evaluationRecords, Option.bind_some]
    cases Outcome.ofExpression expression <;> rfl

namespace Logger

/-- With at most one handler, the records that reach the threshold are written once each. -/
theorem lines_eq_map_line {l : Logger} (h : l.handlers ≤ 1) (events : List Event) :
    l.lines events =
      (if l.handlers = 0 then [] else
        (events.map Event.record).filter (l.threshold ≤ ·.severity.level)).map Record.line := by
  split
  · next hnone => exact lines_eq_nil_of_handlers hnone events
  · have hone : l.handlers = 1 := by omega
    induction events with
    | nil => rfl
    | cons e rest ih =>
      have hcons : l.lines (e :: rest) = l.linesOf e ++ l.lines rest := rfl
      rw [hcons, ih, List.map_cons, List.filter_cons, linesOf, hone]
      change _ = (if decide (l.threshold ≤ e.severity.level) = true then _ else _ : List Record).map _
      by_cases hlevel : l.threshold ≤ e.severity.level
      · rw [if_pos hlevel, if_pos (decide_eq_true hlevel)]
        rfl
      · rw [if_neg hlevel, if_neg (by simpa using hlevel)]
        rfl

end Logger

end Log

namespace Keypad
open Log (Action)

/-- The presses of some keys, each with the input that the ones before it have left. -/
def actions (input : String) (pressed : List Char) : List Action :=
  pressed.mapIdx fun i c => .press (String.singleton c) (inputAfter input (pressed.take i))

theorem actions_concat (input : String) (pressed : List Char) (c : Char) :
    actions input (pressed ++ [c]) =
      actions input pressed ++ [.press (String.singleton c) (inputAfter input pressed)] := by
  have hbefore : (pressed.mapIdx fun i c' =>
      Action.press (String.singleton c') (inputAfter input ((pressed ++ [c]).take i))) =
        actions input pressed := by
    refine List.mapIdx_eq_mapIdx_iff.mpr fun i hi => ?_
    rw [List.take_append_of_le_length (Nat.le_of_lt hi)]
  rw [actions, List.mapIdx_concat, hbefore, List.take_left']
  rfl

theorem records_pressChars (display : Display) {pressed : List Char}
    (hp : ∀ c ∈ pressed, Text.isBlank c = false) :
    (pressChars display pressed).events.map Log.Event.record =
      (actions display.input pressed).flatMap Action.records := by
  induction pressed using List.reverseRecOn with
  | nil => rfl
  | append_singleton pressed c ih =>
    have hbefore : ∀ d ∈ pressed, Text.isBlank d = false :=
      fun d hd => hp d (List.mem_append_left _ hd)
    have hlast : (pressChars (pressChars display pressed).result [c]).events =
        (press (String.singleton c) (inputAfter display.input pressed)).events := by
      rw [result_pressChars display hbefore, ← input_displayAfter]
      simp [pressChars, hp c (by simp)]
    rw [events_pressChars_append, List.map_append, ih hbefore, hlast, Log.records_press,
      actions_concat, List.flatMap_append, List.flatMap_singleton]

end Keypad

namespace Step
open Log (Action Record)

def configures : Step → Bool
  | configure _ => true
  | press _ | keys _ | set _ | evaluate _ => false

/-- What a step does in turn. -/
def actions (display : Display) : Step → List Action
  | press label => [.press label display.input]
  | keys pressed => Keypad.actions display.input (Keypad.presses pressed.toList)
  | evaluate expression => [.evaluate expression]
  | set _ | configure _ => []

def records (display : Display) (step : Step) : List Record :=
  (step.actions display).flatMap Action.records

def failures (display : Display) (step : Step) : List Failure :=
  (step.actions display).filterMap Action.failure?

theorem info_records (display : Display) (step : Step) :
    (step.records display).filter (·.severity = .info) =
      (step.failures display).map Log.rejectionRecord := by
  unfold records failures
  induction step.actions display with
  | nil => rfl
  | cons action rest ih =>
    rw [List.flatMap_cons, List.filter_append, Log.info_records, ih]
    cases h : action.failure? with
    | none => rw [List.filterMap_cons_none h]; rfl
    | some f => rw [List.filterMap_cons_some h]; rfl

end Step

namespace Session

@[simp] theorem records_respond (display : Display) (step : Step) :
    (respond display step).events.map Log.Event.record = step.records display := by
  cases step with
  | press label => exact (Log.records_press label display.input).trans (List.append_nil _).symm
  | keys pressed =>
    change (Keypad.pressChars display pressed.toList).events.map Log.Event.record = _
    rw [Keypad.pressChars_presses]
    exact Keypad.records_pressChars display (Keypad.isBlank_of_mem_presses pressed.toList)
  | evaluate expression => exact Log.records_evaluate expression
  | set other => rfl
  | configure level => rfl

/-- The session that some steps leave. -/
def after (s : Session) (steps : List Step) : Session :=
  steps.foldl (fun s step => (s.step step).1) s

@[simp] theorem after_concat (s : Session) (steps : List Step) (step : Step) :
    s.after (steps ++ [step]) = ((s.after steps).step step).1 := by
  simp [after]

theorem getElem?_trace (s : Session) (done : List Step) (step : Step) (later : List Step) :
    (s.trace (done ++ step :: later))[done.length]? = some ((s.after done).step step) := by
  induction done generalizing s with
  | nil => rfl
  | cons first done ih => exact ih (s.step first).1

theorem handlers_step (s : Session) (step : Step) :
    (s.step step).1.logger.handlers =
      if step.configures then max 1 s.logger.handlers else s.logger.handlers := by
  cases step with
  | configure level => exact s.logger.handlers_configure level
  | press | keys | set | evaluate => rfl

/-- The first configuration adds the one handler. -/
theorem handlers_after (display : Display) (steps : List Step) :
    (({ display } : Session).after steps).logger.handlers =
      if steps.any Step.configures then 1 else 0 := by
  induction steps using List.reverseRecOn with
  | nil => rfl
  | append_singleton steps step ih =>
    rw [after_concat, handlers_step, ih, List.any_append]
    cases steps.any Step.configures <;> cases hs : step.configures <;> simp [hs]

/-- After every step of a session there is one handler if the logger has been configured, and none
otherwise. Of the records that a step emits the handler writes those that reach the threshold, in
their order. Each failure of an evaluation is among them once, as long as the threshold lets
informative records pass. -/
theorem log_of_step (display : Display) (done : List Step) (step : Step) (later : List Step) :
    let start : Session := { display }
    let before := start.after done
    let threshold : Int := if before.logger.level = 0 then 30 else before.logger.level
    let emitted := (respond before.display step).events.map Log.Event.record
    let written :=
      if before.logger.handlers = 0 then []
      else emitted.filter (threshold ≤ ·.severity.level)
    ∃ next report,
      (start.trace (done ++ step :: later))[done.length]? = some (next, report) ∧
      next.logger.handlers = (if (done ++ [step]).any Step.configures then 1 else 0) ∧
      emitted = step.records before.display ∧
      report.lines = written.map Log.Record.line ∧
      (∀ expression, step = .evaluate expression →
        report.outcome? = some (.ofExpression expression)) ∧
      (before.logger.handlers ≠ 0 → threshold ≤ 20 →
        written.filter (·.severity = .info) =
          (step.failures before.display).map Log.rejectionRecord) := by
  intro start before threshold emitted written
  have hemitted : emitted = step.records before.display := records_respond before.display step
  have hone : before.logger.handlers ≤ 1 := by
    rw [handlers_after]
    split <;> omega
  refine ⟨(before.step step).1, (before.step step).2, getElem?_trace start done step later, ?_,
    hemitted, ?_, ?_, ?_⟩
  · rw [← after_concat, handlers_after]
  · rw [lines_step]
    exact Log.Logger.lines_eq_map_line hone _
  · rintro expression rfl
    rfl
  · intro hhandler hthreshold
    have hwritten : written = emitted.filter (threshold ≤ ·.severity.level) := if_neg hhandler
    rw [hwritten, List.filter_filter, ← Step.info_records, hemitted]
    refine List.filter_congr fun record _ => ?_
    cases hseverity : record.severity with
    | debug => rfl
    | info =>
      have hlevel : threshold ≤ Log.Severity.info.level := hthreshold
      rw [decide_eq_true hlevel]
      rfl

/-- The first failure meets a logger that nobody has configured. The second one is written once,
although the logger has been configured twice, once with a level that it does not take. -/
theorem log_of_step_configured_twice :
    let done := [.keys "1/0=", .configure (.name "basic_format"), .configure (.name "info")]
    ∃ next report,
      (({} : Session).trace (done ++ [.keys "= C2="]))[done.length]? = some (next, report) ∧
      next.logger.handlers = 1 ∧
      report.lines =
        ["[INFO] basic_calculator: 🧮❌ Rejected '1/0': DivisionByZero: Cannot divide by zero"] := by
  intro done
  obtain ⟨next, report, hentry, hhandlers, -, hlines, -, -⟩ :=
    log_of_step {} done (.keys "= C2=") []
  exact ⟨next, report, hentry, hhandlers, hlines.trans (by decide +kernel)⟩

end Session

end Reckoner

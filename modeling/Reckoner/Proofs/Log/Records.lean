import Reckoner.CommandLine.Run
import Reckoner.Proofs.Number.Lettering
import Reckoner.Proofs.Session.Visits
import Reckoner.Proofs.Text.Quoting

/-! Records of the log. Each is one line of printable characters, whatever the texts that it tells
of, and these texts can be told from it. -/
namespace Reckoner

open Text (Visible)

theorem Number.isPrintable_of_mem_alphabet {c : Char} (h : c ∈ alphabet) :
    Text.isPrintable c = true := by
  have hall : alphabet.all Text.isPrintable = true := by decide
  exact List.all_eq_true.mp hall c h

theorem Number.visible_ofList {cs : List Char} (h : cs ⊆ alphabet) :
    Visible (String.ofList cs) := by
  intro c hc
  rw [String.toList_ofList] at hc
  exact isPrintable_of_mem_alphabet (h hc)

theorem Fault.visible_detail (fault : Fault) : Visible fault.detail := by
  cases fault with
  | divisionByZero | closingWithoutOpening | openingNeverClosed | empty | operandsLeft =>
    show Visible _
    decide
  | missingOperand symbol =>
    have hend : Visible " is missing an operand" := by decide
    have hstart : Visible "Operator " := by decide
    exact (hstart.append (Text.visible_quote symbol)).append hend
  | strayCharacter c position =>
    have hstart : Visible "Unexpected character " := by decide
    have hmiddle : Visible " at position " := by decide
    have hposition := Number.visible_ofList (Number.toDigits_subset position)
    exact ((hstart.append (Text.visible_quote _)).append hmiddle).append hposition

theorem EvaluationError.visible_message {e : EvaluationError} (h : Visible e.detail) :
    Visible e.message := by
  have hkind : Visible e.kind.name := by cases e.kind <;> decide
  have hcolon : Visible ": " := by decide
  exact (hkind.append hcolon).append h

namespace Log

theorem visible_settingsText (settings : List (String × String)) :
    Visible (settingsText settings) := by
  have hopen : Visible "\x7b" := by decide
  have hclose : Visible "\x7d" := by decide
  have hcomma : Visible ", " := by decide
  have hcolon : Visible ": " := by decide
  have hentries : ∀ t ∈ settings.map fun s => Text.quote s.1 ++ ": " ++ Text.quote s.2,
      Visible t := by
    intro t ht
    obtain ⟨s, -, rfl⟩ := List.mem_map.mp ht
    exact ((Text.visible_quote s.1).append hcolon).append (Text.visible_quote s.2)
  exact (hopen.append (hcomma.intercalate hentries)).append hclose

theorem Event.visible_text (event : Event) : Visible event.text := by
  cases event with
  | evaluating expression =>
    have hstart : Visible "🧮🏁 Evaluating " := by decide +kernel
    exact hstart.append (Text.visible_quote expression)
  | evaluated expression value =>
    have hstart : Visible "🧮✅ " := by decide +kernel
    have hmiddle : Visible " = " := by decide
    have hvalue := Number.visible_ofList (Number.numeralChars_subset value)
    exact ((hstart.append (Text.visible_quote expression)).append hmiddle).append hvalue
  | rejected expression fault =>
    have hstart : Visible "🧮❌ Rejected " := by decide +kernel
    have hcolon : Visible ": " := by decide
    have hmessage : Visible (fault.error expression).message :=
      EvaluationError.visible_message fault.visible_detail
    exact ((hstart.append (Text.visible_quote expression)).append hcolon).append hmessage
  | pressed label input =>
    have hstart : Visible "🔘 Button " := by decide +kernel
    have hmiddle : Visible " pressed with input " := by decide
    exact ((hstart.append (Text.visible_quote label)).append hmiddle).append
      (Text.visible_quote input)
  | started settings =>
    have hstart : Visible "🖥️ Calculator started with " := by decide +kernel
    exact hstart.append (visible_settingsText settings)

namespace Logger

theorem visible_line (event : Event) : Visible (line event) := by
  have hopen : Visible "[" := by decide
  have hname : Visible event.severity.name := by cases event.severity <;> decide
  have hclose : Visible "] " := by decide
  have hlogger : Visible loggerName := by decide
  have hcolon : Visible ": " := by decide
  exact ((((hopen.append hname).append hclose).append hlogger).append hcolon).append
    event.visible_text

theorem visible_lines (l : Logger) (events : List Event) :
    ∀ record ∈ l.lines events, Visible record := by
  intro record hrecord
  obtain ⟨event, -, hline⟩ := List.mem_flatMap.mp hrecord
  unfold linesOf at hline
  split at hline
  · rw [List.eq_of_mem_replicate hline]
    exact visible_line event
  · cases hline

theorem text_eq_of_line_eq {event other : Event} (h : line event = line other)
    (hseverity : event.severity = other.severity) : event.text = other.text := by
  unfold line at h
  rw [hseverity] at h
  exact (String.append_right_inj _).mp h

theorem line_evaluating_injective :
    Function.Injective fun expression => line (.evaluating expression) := by
  intro expression other h
  have htext : "🧮🏁 Evaluating " ++ Text.quote expression =
      "🧮🏁 Evaluating " ++ Text.quote other := text_eq_of_line_eq h rfl
  exact Text.quote_injective ((String.append_right_inj _).mp htext)

theorem line_pressed_injective :
    Function.Injective fun press : String × String => line (.pressed press.1 press.2) := by
  rintro ⟨label, input⟩ ⟨otherLabel, otherInput⟩ h
  have htext : "🔘 Button " ++ Text.quote label ++ " pressed with input " ++ Text.quote input =
      "🔘 Button " ++ Text.quote otherLabel ++ " pressed with input " ++ Text.quote otherInput :=
    text_eq_of_line_eq h rfl
  simp only [String.append_assoc] at htext
  -- The quoted label shows its own end, so what the label holds cannot pass for the input.
  obtain ⟨rfl, hrest⟩ := Text.quote_append_inj ((String.append_right_inj _).mp htext)
  rw [Text.quote_injective ((String.append_right_inj _).mp hrest)]

end Logger

end Log

theorem CommandLine.Answer.visible_lines (invocation : Invocation) :
    ∀ record ∈ (ofInvocation invocation).lines, Visible record := by
  cases invocation with
  | help => exact fun record h => nomatch h
  | misused e => exact fun record h => nomatch h
  | refused defects => exact fun record h => nomatch h
  | accepted a => exact Log.Logger.visible_lines _ _

/-- No record of a session or of a run breaks its line. The record of a press tells the label and
the input, and that of the start of an evaluation tells the expression. -/
theorem Log.records_unforgeable :
    (∀ (s : Session) (steps : List Step), ∀ entry ∈ s.trace steps, ∀ record ∈ entry.2.lines,
      Visible record ∧ ∀ c ∈ Text.lineBreaks, c ∉ record.toList) ∧
    (∀ argv : List String,
      ∀ record ∈ (CommandLine.Answer.ofInvocation (.ofTexts argv)).lines,
        Visible record ∧ ∀ c ∈ Text.lineBreaks, c ∉ record.toList) ∧
    (Function.Injective fun expression => Logger.line (.evaluating expression)) ∧
    Function.Injective fun press : String × String => Logger.line (.pressed press.1 press.2) := by
  have honeLine {record : String} (h : Visible record) :
      Visible record ∧ ∀ c ∈ Text.lineBreaks, c ∉ record.toList := ⟨h, h.not_mem_of_lineBreak⟩
  refine ⟨?_, ?_, Logger.line_evaluating_injective, Logger.line_pressed_injective⟩
  · intro s steps entry hentry record hrecord
    rw [Session.trace_eq_map_visits] at hentry
    obtain ⟨visit, -, rfl⟩ := List.mem_map.mp hentry
    rw [Session.lines_step] at hrecord
    exact honeLine (Logger.visible_lines _ _ record hrecord)
  · intro argv record hrecord
    exact honeLine (CommandLine.Answer.visible_lines _ record hrecord)

/-- A label that looks like the end of a record and the start of the next one, and a stray line
separator between quotation marks of both kinds. -/
theorem Log.records_unforgeable_of_lines :
    let steps := [.configure (.name "debug"), .press "1' pressed with input ''\n[INFO] 2",
      .evaluate "'\"\u2028"]
    (({} : Session).trace steps).map (fun entry => entry.2.lines) =
      [[], ["[DEBUG] basic_calculator: 🔘 Button \"1' pressed with input ''\\n[INFO] 2\" " ++
          "pressed with input ''"],
        ["[DEBUG] basic_calculator: 🧮🏁 Evaluating '\\'\"\\u2028'",
          "[INFO] basic_calculator: 🧮❌ Rejected '\\'\"\\u2028': " ++
            "InvalidCharacter: Unexpected character \"'\" at position 0"]] ∧
    ∀ entry ∈ ({} : Session).trace steps, ∀ record ∈ entry.2.lines,
      ∀ c ∈ Text.lineBreaks, c ∉ record.toList := by
  intro steps
  refine ⟨by decide +kernel, fun entry hentry record hrecord => ?_⟩
  exact (Log.records_unforgeable.1 {} steps entry hentry record hrecord).2

end Reckoner

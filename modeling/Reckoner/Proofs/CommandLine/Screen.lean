import Reckoner.Proofs.CommandLine.Admission
import Reckoner.Proofs.Expression.Alphabet
import Reckoner.Proofs.Keypad.Reports
import Reckoner.Proofs.Number.Lettering

/-! What a run prints and which code it returns. The code is read off the printed text, which is
safe because neither the keys nor the value of an expression can produce the text of a failure. -/
namespace Reckoner

namespace Keypad

theorem shown_ne_empty (input : String) : shown input ≠ "" := by
  unfold shown
  cases compute input with
  | ok value => exact Number.numeral_ne_empty value
  | error fault =>
    show "Error" ≠ ""
    decide

theorem shown_eq_errorText_iff {input : String} :
    shown input = Outcome.errorText ↔ ∃ fault, compute input = .error fault := by
  unfold shown
  cases compute input with
  | ok value => simpa using Number.numeral_ne_errorText value
  | error fault => simp [Outcome.errorText]

theorem screen_pressAll (keys : String) :
    (pressAll keys {}).result.screen =
      if (presses keys.toList).getLast? = some '=' then
        shown (String.ofList (typed (presses keys.toList)))
      else String.ofList (typed (presses keys.toList)) := by
  rw [pressAll, pressChars_presses, result_pressChars _ (isBlank_of_mem_presses _), displayAfter]
  cases hlast : (presses keys.toList).getLast? with
  | none =>
    rw [List.getLast?_eq_none_iff.mp hlast]
    rfl
  | some last =>
    have hinput : inputAfter "" (presses keys.toList) =
        String.ofList (typed (presses keys.toList)) := by
      simp [inputAfter]
    simp only [hinput, Option.some.injEq]
    unfold Display.screen
    split
    · rw [if_neg (shown_ne_empty _)]
    · rw [if_pos rfl]

theorem typed_subset (pressed : List Char) : typed pressed ⊆ pressed := by
  intro c hc
  exact (List.rtakeWhile_suffix _ _).subset (List.mem_filter.mp hc).1

theorem typed_eq_self {pressed : List Char} (h : ∀ c ∈ pressed, c ≠ 'C' ∧ c ≠ '=') :
    typed pressed = pressed := by
  unfold typed
  rw [List.rtakeWhile_eq_self_iff.mpr fun c hc => by simpa using (h c hc).1]
  exact List.filter_eq_self.mpr fun c hc => by simpa using (h c hc).2

/-- No label is the letter that the text of a failure begins with. -/
theorem typed_ne_errorText {keys : String} (h : ∀ c ∈ keys.toList, isKey c = true) :
    String.ofList (typed (presses keys.toList)) ≠ Outcome.errorText := by
  intro heq
  have hchars : typed (presses keys.toList) = Outcome.errorText.toList := by
    rw [← heq, String.toList_ofList]
  have hcapital : 'E' ∈ presses keys.toList := by
    refine typed_subset _ ?_
    rw [hchars]
    decide
  have hkey := h 'E' (List.mem_filter.mp hcapital).1
  revert hkey
  decide

end Keypad

namespace Arguments

theorem screen_of_expression {a : Arguments} {expression : String}
    (h : a.expression = some expression) :
    a.screen = ⟨Keypad.shown expression, (Log.evaluate expression).events⟩ := by
  unfold screen
  rw [h]
  dsimp only
  rw [Keypad.text_evaluate]

theorem screen_of_keys {a : Arguments} {keys : String} (h : a.keys = some keys)
    (hnone : a.expression = none) :
    a.screen = ⟨(Keypad.pressAll keys {}).result.screen, (Keypad.pressAll keys {}).events⟩ := by
  unfold screen
  rw [hnone, h]
  rfl

/-- Typing an expression and asking for its value shows what evaluating it at once shows, if no two
digits are parted by blanks alone. -/
theorem screen_of_typed_expression {expression : String}
    (hlegal : ∀ c ∈ expression.toList, Text.isBlank c = true ∨ c ∈ Token.alphabet)
    (hparts : ¬Text.PartsDigits expression.toList) :
    ∃ typing evaluating : Arguments,
      ofForm [("keys", .text (expression ++ "="))] = .ok typing ∧
      ofForm [("expression", .text expression)] = .ok evaluating ∧
      typing.screen.result = evaluating.screen.result := by
  have hclear : 'C' ∉ Token.alphabet := by decide
  have hequals : '=' ∉ Token.alphabet := by decide
  have hkeys : ∀ c ∈ (expression ++ "=").toList, Keypad.isKey c = true := by
    intro c hc
    rw [String.toList_append, List.mem_append] at hc
    rcases hc with hc | hc
    · rcases hlegal c hc with hblank | hpart
      · simp [Keypad.isKey, hblank]
      · have hlabel : c ∈ Keypad.labels := Keypad.mem_labels_iff.mpr (.inl hpart)
        simp [Keypad.isKey, hlabel]
    · obtain rfl : c = '=' := by simpa using hc
      decide
  refine ⟨_, _, ofForm_keys hkeys, ofForm_expression expression, ?_⟩
  let kept := expression.toList.filter fun c => !Text.isBlank c
  have hkept : ∀ c ∈ kept, c ≠ 'C' ∧ c ≠ '=' := by
    intro c hc
    obtain ⟨hmem, hblank⟩ := List.mem_filter.mp hc
    have hpart := (hlegal c hmem).resolve_left (by simpa using hblank)
    exact ⟨ne_of_mem_of_not_mem hpart hclear, ne_of_mem_of_not_mem hpart hequals⟩
  have hpresses : Keypad.presses (expression ++ "=").toList = kept ++ ['='] := by
    rw [String.toList_append, Keypad.presses, List.filter_append]
    rfl
  have htyped : Keypad.typed (kept ++ ['=']) = kept := by
    have happend : Keypad.typed (kept ++ ['=']) = Keypad.typed kept := by simp [Keypad.typed]
    rw [happend, Keypad.typed_eq_self hkept]
  rw [screen_of_keys rfl rfl, screen_of_expression rfl]
  dsimp only
  rw [Keypad.screen_pressAll, hpresses, List.getLast?_concat, if_pos rfl, htyped]
  unfold Keypad.shown
  rw [compute_filter_blanks hlegal hparts]

theorem screen_of_typed_expression_group :
    (∀ c ∈ "(12 +\t3)* 4/ 0".toList, Text.isBlank c = true ∨ c ∈ Token.alphabet) ∧
      ¬Text.PartsDigits "(12 +\t3)* 4/ 0".toList ∧
      ∃ typing evaluating : Arguments,
        ofForm [("keys", .text "(12 +\t3)* 4/ 0=")] = .ok typing ∧
        ofForm [("expression", .text "(12 +\t3)* 4/ 0")] = .ok evaluating ∧
        typing.screen.result = evaluating.screen.result := by
  have hall : "(12 +\t3)* 4/ 0".toList.all
      (fun c => Text.isBlank c || Token.alphabet.contains c) = true := by
    decide
  have hlegal : ∀ c ∈ "(12 +\t3)* 4/ 0".toList, Text.isBlank c = true ∨ c ∈ Token.alphabet := by
    intro c hc
    have hchar := List.all_eq_true.mp hall c hc
    rwa [Bool.or_eq_true, List.contains_iff_mem] at hchar
  have hparts : ¬Text.PartsDigits "(12 +\t3)* 4/ 0".toList := by decide
  exact ⟨hlegal, hparts, screen_of_typed_expression hlegal hparts⟩

end Arguments

namespace CommandLine

/-- The output and the exit code for the value of an expression or the failure to find one. -/
def report : Except Fault Float → String × Nat
  | .ok value => (Number.numeral value ++ "\n", 0)
  | .error _ => ("Error\n", 1)

theorem report_compute (input : String) :
    report (compute input) =
      (Keypad.shown input ++ "\n", if Keypad.shown input = Outcome.errorText then 1 else 0) := by
  unfold Keypad.shown
  cases compute input with
  | ok value => simp only [report, if_neg (Number.numeral_ne_errorText value)]
  | error fault => rfl

theorem output_exitCode_ofArguments (a : Arguments) :
    ((Answer.ofArguments a).output, (Answer.ofArguments a).exitCode) =
      (a.screen.result ++ "\n", if a.screen.result = Outcome.errorText then 1 else 0) := rfl

theorem exitCode_ofArguments_eq_one_iff {a : Arguments} (h : a.Admitted) :
    (Answer.ofArguments a).exitCode = 1 ↔ a.screen.EndsRejected := by
  have hcode : (Answer.ofArguments a).exitCode = 1 ↔ a.screen.result = Outcome.errorText := by
    change (if a.screen.result = Outcome.errorText then 1 else 0) = 1 ↔ _
    split <;> simp_all
  rw [hcode]
  cases hexpression : a.expression with
  | some expression =>
    rw [Arguments.screen_of_expression hexpression]
    exact Keypad.shown_eq_errorText_iff.trans Log.endsRejected_evaluate_iff.symm
  | none =>
    obtain ⟨keys, hkeys⟩ : ∃ keys, a.keys = some keys := by
      refine Option.ne_none_iff_exists'.mp fun hnone => ?_
      have hsome := h.exactlyOne.mp hnone
      simp [hexpression] at hsome
    rw [Arguments.screen_of_keys hkeys hexpression]
    refine Iff.trans ?_ Keypad.endsRejected_pressAll_iff.symm
    dsimp only
    rw [Keypad.screen_pressAll]
    split
    · next hlast => simp [hlast, Keypad.shown_eq_errorText_iff, Keypad.inputAfter]
    · next hlast => simp [hlast, Keypad.typed_ne_errorText (h.isKey keys hkeys)]

/-- What accepted arguments print and return. The code tells whether the run ended in a failed
evaluation, and setting the level of the log never stands in the way. -/
theorem answer_of_accepted {argv : List String} {a : Arguments}
    (h : Invocation.ofTexts argv = .accepted a) :
    let answer := Answer.ofInvocation (.ofTexts argv)
    (a.keys = none ↔ a.expression.isSome = true) ∧
    (∀ expression, a.expression = some expression →
      (answer.output, answer.exitCode) = report (compute expression)) ∧
    (∀ keys, a.keys = some keys →
      let pressed := keys.toList.filter fun c => !Text.isBlank c
      let typed := String.ofList ((pressed.rtakeWhile (· ≠ 'C')).filter (· ≠ '='))
      (answer.output, answer.exitCode) =
        if pressed.getLast? = some '=' then report (compute typed) else (typed ++ "\n", 0)) ∧
    (answer.exitCode = 1 ↔ a.screen.EndsRejected) ∧
    (Log.Logger.configure {} (.name a.logLevel)).2 = none := by
  have hadmitted := admitted_of_accepted h
  rw [h]
  dsimp only [Answer.ofInvocation]
  refine ⟨hadmitted.exactlyOne, ?_, ?_, exitCode_ofArguments_eq_one_iff hadmitted,
    hadmitted.unknownLevel?_configure _⟩
  · intro expression hexpression
    rw [output_exitCode_ofArguments, Arguments.screen_of_expression hexpression, report_compute]
  · intro keys hkeys
    have hnone : a.expression = none := by
      cases hexpression : a.expression with
      | none => rfl
      | some expression =>
        have hkeysNone := hadmitted.exactlyOne.mpr (by simp [hexpression])
        rw [hkeys] at hkeysNone
        cases hkeysNone
    rw [output_exitCode_ofArguments, Arguments.screen_of_keys hkeys hnone]
    dsimp only
    rw [Keypad.screen_pressAll]
    change _ = if (Keypad.presses keys.toList).getLast? = some '=' then
      report (compute (String.ofList (Keypad.typed (Keypad.presses keys.toList)))) else
        (String.ofList (Keypad.typed (Keypad.presses keys.toList)) ++ "\n", 0)
    split
    · rw [report_compute]
    · rw [if_neg (Keypad.typed_ne_errorText (hadmitted.isKey keys hkeys))]

theorem answer_of_accepted_zero_divisor :
    Invocation.ofTexts ["--log-level=debug", "7+C 1/0 ="] =
        .accepted ⟨some "7+C 1/0 =", none, "DEBUG"⟩ ∧
      (Answer.ofInvocation (.ofTexts ["--log-level=debug", "7+C 1/0 ="])).output = "Error\n" ∧
      (Answer.ofInvocation (.ofTexts ["--log-level=debug", "7+C 1/0 ="])).exitCode = 1 := by
  have h : Invocation.ofTexts ["--log-level=debug", "7+C 1/0 ="] =
      .accepted ⟨some "7+C 1/0 =", none, "DEBUG"⟩ := by
    decide +kernel
  obtain ⟨-, -, hkeys, -, -⟩ := answer_of_accepted h
  have hpressed : "7+C 1/0 =".toList.filter (fun c => !Text.isBlank c) =
      ['7', '+', 'C', '1', '/', '0', '='] := by
    decide +kernel
  have htyped : String.ofList ((['7', '+', 'C', '1', '/', '0', '='].rtakeWhile (· ≠ 'C')).filter
      (· ≠ '=')) = "1/0" := by
    decide +kernel
  have hreport : report (compute "1/0") = ("Error\n", 1) := by
    decide +kernel
  have hanswer := hkeys "7+C 1/0 =" rfl
  simp only [hpressed] at hanswer
  rw [if_pos (by decide), htyped, hreport, Prod.mk.injEq] at hanswer
  exact ⟨h, hanswer⟩

end CommandLine

end Reckoner

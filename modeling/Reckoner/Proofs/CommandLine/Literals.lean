import Reckoner.Proofs.CommandLine.Screen
import Reckoner.Proofs.Expression.Spelling
import Reckoner.Proofs.Number.Integers

/-! A run on a single literal, as an expression or typed on the keypad. The scan makes one token of
its digits, however many there are, and the value of that token is what is shown. -/
namespace Reckoner

theorem compute_literal {digits : List Char} (hne : digits ≠ [])
    (hdigits : ∀ c ∈ digits, Text.isDigit c = true) :
    compute (String.ofList digits) = .ok (Number.ofLiteral digits) := by
  have hscan : Scan.ofString (String.ofList digits) = ⟨[.number digits], none⟩ := by
    have hread := @Scan.ofChars_digits digits hne hdigits 0 [] rfl
    rw [List.append_nil] at hread
    rw [Scan.ofString, String.toList_ofList, hread]
    rfl
  rw [compute, hscan]
  rfl

/-- Asking for the value of what was typed shows it, if nothing that was typed is a command. -/
theorem Keypad.screen_pressAll_equals {input : String}
    (h : ∀ c ∈ input.toList, Text.isBlank c = false ∧ c ≠ 'C' ∧ c ≠ '=') :
    (pressAll (input ++ "=") {}).result.screen = shown input := by
  have hpresses : presses (input ++ "=").toList = input.toList ++ ['='] := by
    have hkept : presses input.toList = input.toList :=
      List.filter_eq_self.mpr fun c hc => by simp [(h c hc).1]
    rw [String.toList_append, presses, List.filter_append]
    exact congrArg (· ++ ['=']) hkept
  have htyped : typed (input.toList ++ ['=']) = input.toList := by
    have happend : typed (input.toList ++ ['=']) = typed input.toList := by simp [typed]
    rw [happend, typed_eq_self fun c hc => (h c hc).2]
  rw [screen_pressAll, hpresses, List.getLast?_concat, if_pos rfl, htyped, String.ofList_toList]

namespace Arguments

theorem screens_of_literal {literal : String} (hne : literal ≠ "")
    (hdigits : ∀ c ∈ literal.toList, Text.isDigit c = true) :
    ∃ typing evaluating : Arguments,
      ofForm [("keys", .text (literal ++ "="))] = .ok typing ∧
      ofForm [("expression", .text literal)] = .ok evaluating ∧
      typing.screen.result = Number.numeral (Number.ofLiteral literal.toList) ∧
      evaluating.screen.result = Number.numeral (Number.ofLiteral literal.toList) := by
  have hkey : ∀ c ∈ Text.digits, Keypad.isKey c = true := List.all_eq_true.mp (by decide)
  have hplain : ∀ c ∈ literal.toList, Text.isBlank c = false ∧ c ≠ 'C' ∧ c ≠ '=' := by
    intro c hc
    have hdigit := hdigits c hc
    refine ⟨Text.isBlank_eq_false_of_isDigit hdigit, ?_, ?_⟩
    · rintro rfl
      exact absurd hdigit (by decide)
    · rintro rfl
      exact absurd hdigit (by decide)
  have hkeys : ∀ c ∈ (literal ++ "=").toList, Keypad.isKey c = true := by
    intro c hc
    rw [String.toList_append, List.mem_append] at hc
    rcases hc with hc | hc
    · exact hkey c (Text.mem_digits_iff.mpr (hdigits c hc))
    · obtain rfl : c = '=' := by simpa using hc
      decide
  have hshown : Keypad.shown literal = Number.numeral (Number.ofLiteral literal.toList) := by
    have hcompute := compute_literal (String.toList_eq_nil_iff.not.mpr hne) hdigits
    rw [String.ofList_toList] at hcompute
    rw [Keypad.shown, hcompute]
  refine ⟨_, _, ofForm_keys hkeys, ofForm_expression literal, ?_, ?_⟩
  · rw [screen_of_keys rfl rfl, ← hshown]
    exact Keypad.screen_pressAll_equals hplain
  · rw [screen_of_expression rfl, ← hshown]

/-- A literal is shown as the number that it denotes, without leading zeros, if that number is a
double with all those below it; one too large for a double is shown as infinity. -/
theorem literal_shown_exactly {literal : String} (hne : literal ≠ "")
    (hdigits : ∀ c ∈ literal.toList, Text.isDigit c = true) :
    ∃ typing evaluating : Arguments,
      ofForm [("keys", .text (literal ++ "="))] = .ok typing ∧
      ofForm [("expression", .text literal)] = .ok evaluating ∧
      (Number.ofDigits literal.toList ≤ 2 ^ 53 →
        typing.screen.result = toString (Number.ofDigits literal.toList) ++ ".0" ∧
        evaluating.screen.result = toString (Number.ofDigits literal.toList) ++ ".0") ∧
      (2 ^ 1024 - 2 ^ 970 ≤ Number.ofDigits literal.toList →
        typing.screen.result = "inf" ∧ evaluating.screen.result = "inf") := by
  obtain ⟨typing, evaluating, htyping, hevaluating, hkeys, hexpression⟩ :=
    screens_of_literal hne hdigits
  refine ⟨typing, evaluating, htyping, hevaluating, fun hle => ?_, fun hge => ?_⟩
  · rw [hkeys, hexpression, Number.numeral_ofLiteral_of_le hle]
    exact ⟨rfl, rfl⟩
  · rw [hkeys, hexpression, Number.numeral_ofLiteral_of_ge hge]
    exact ⟨rfl, rfl⟩

theorem literal_shown_exactly_largest :
    "0009007199254740992" ≠ "" ∧ (∀ c ∈ "0009007199254740992".toList, Text.isDigit c = true) ∧
      ∃ typing evaluating : Arguments,
        ofForm [("keys", .text "0009007199254740992=")] = .ok typing ∧
        ofForm [("expression", .text "0009007199254740992")] = .ok evaluating ∧
        typing.screen.result = "9007199254740992.0" ∧
        evaluating.screen.result = "9007199254740992.0" := by
  have hne : "0009007199254740992" ≠ "" := by decide
  have hdigits : ∀ c ∈ "0009007199254740992".toList, Text.isDigit c = true :=
    List.all_eq_true.mp (by decide)
  have hnumber : Number.ofDigits "0009007199254740992".toList = 2 ^ 53 := by decide
  obtain ⟨typing, evaluating, htyping, hevaluating, hshown, -⟩ := literal_shown_exactly hne hdigits
  have htext : toString (2 ^ 53) ++ ".0" = "9007199254740992.0" := by decide
  rw [hnumber, htext] at hshown
  exact ⟨hne, hdigits, typing, evaluating, htyping, hevaluating, hshown le_rfl⟩

end Arguments

end Reckoner

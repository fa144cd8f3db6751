import Mathlib.Data.List.DropRight
import Reckoner.Keypad.Display

/-! What a sequence of keys leaves on the display, told without going through the keys one by one:
what was typed after the last clear, and its result if the last key asks for it. -/
namespace Reckoner.Keypad

def presses (keys : List Char) : List Char := keys.filter fun c => !Text.isBlank c

theorem isBlank_of_mem_presses (keys : List Char) :
    ∀ c ∈ presses keys, Text.isBlank c = false := by
  intro c hc
  simpa using (List.mem_filter.mp hc).2

def typed (pressed : List Char) : List Char :=
  (pressed.rtakeWhile (· ≠ 'C')).filter (· ≠ '=')

/-- The input after some presses: a clear takes away what was there before them. -/
def inputAfter (input : String) (pressed : List Char) : String :=
  (if 'C' ∈ pressed then "" else input) ++ String.ofList (typed pressed)

/-- The text shown when the value of an input is asked for. -/
def shown (input : String) : String :=
  match compute input with
  | .ok value => Number.numeral value
  | .error _ => "Error"

/-- The display after the presses of some keys. -/
def displayAfter (display : Display) (pressed : List Char) : Display :=
  match pressed.getLast? with
  | none => display
  | some last =>
    let input := inputAfter display.input pressed
    ⟨input, if last = '=' then shown input else ""⟩

@[simp] theorem inputAfter_nil (input : String) : inputAfter input [] = input := by
  simp [inputAfter, typed]

@[simp] theorem inputAfter_clear (input : String) (pressed : List Char) :
    inputAfter input (pressed ++ ['C']) = "" := by
  simp [inputAfter, typed]

@[simp] theorem inputAfter_equals (input : String) (pressed : List Char) :
    inputAfter input (pressed ++ ['=']) = inputAfter input pressed := by
  simp [inputAfter, typed]

theorem inputAfter_symbol (input : String) (pressed : List Char) {c : Char} (hc : c ≠ 'C')
    (he : c ≠ '=') :
    inputAfter input (pressed ++ [c]) = inputAfter input pressed ++ String.singleton c := by
  have htyped : typed (pressed ++ [c]) = typed pressed ++ [c] := by
    unfold typed
    rw [List.rtakeWhile_concat_pos _ _ _ (by simpa using hc)]
    simp [he]
  have hmem : 'C' ∈ pressed ++ [c] ↔ 'C' ∈ pressed := by
    simp [hc.symm]
  unfold inputAfter
  rw [htyped, String.ofList_append, ← String.append_assoc]
  simp only [hmem]
  rfl

theorem press_clear (input : String) :
    press (String.singleton 'C') input = ⟨{}, [.pressed (String.singleton 'C') input]⟩ := rfl

theorem press_equals (input : String) :
    press (String.singleton '=') input =
      ⟨⟨input, (Log.evaluate input).result.text⟩,
        .pressed (String.singleton '=') input :: (Log.evaluate input).events⟩ := by
  have hlabel : String.singleton '=' ≠ String.singleton clear := by decide
  have hequals : String.singleton '=' = String.singleton equals := rfl
  unfold press
  rw [if_neg hlabel, if_pos hequals]

theorem press_of_ne {label : String} (hc : label ≠ String.singleton 'C')
    (he : label ≠ String.singleton '=') (input : String) :
    press label input = ⟨⟨input ++ label, ""⟩, [.pressed label input]⟩ := by
  unfold press
  rw [if_neg (show label ≠ String.singleton clear from hc),
    if_neg (show label ≠ String.singleton equals from he)]

theorem text_evaluate (input : String) : (Log.evaluate input).result.text = shown input := by
  rw [Log.result_evaluate]
  unfold Outcome.ofExpression shown
  cases compute input <;> rfl

theorem result_press_equals (input : String) :
    (press (String.singleton '=') input).result = ⟨input, shown input⟩ := by
  rw [press_equals, text_evaluate]

theorem result_press_symbol (input : String) {c : Char} (hc : c ≠ 'C') (he : c ≠ '=') :
    (press (String.singleton c) input).result = ⟨input ++ String.singleton c, ""⟩ := by
  rw [press_of_ne (String.singleton_inj.not.mpr hc) (String.singleton_inj.not.mpr he)]

theorem pressChars_presses (display : Display) (keys : List Char) :
    pressChars display keys = pressChars display (presses keys) := by
  induction keys generalizing display with
  | nil => rfl
  | cons c rest ih =>
    by_cases hc : Text.isBlank c = true
    · have hskip : presses (c :: rest) = presses rest := by simp [presses, hc]
      rw [hskip, pressChars, if_pos hc]
      exact ih display
    · have hpress : presses (c :: rest) = c :: presses rest := by simp [presses, hc]
      rw [hpress, pressChars, if_neg hc, pressChars, if_neg hc]
      simp only [ih (press (String.singleton c) display.input).result]

theorem result_pressChars_concat (display : Display) (pressed : List Char) {c : Char}
    (hc : Text.isBlank c = false) :
    (pressChars display (pressed ++ [c])).result =
      (press (String.singleton c) (pressChars display pressed).result.input).result := by
  rw [pressChars_append, pressChars, if_neg (by simp [hc])]
  rfl

@[simp] theorem input_displayAfter (display : Display) (pressed : List Char) :
    (displayAfter display pressed).input = inputAfter display.input pressed := by
  cases pressed using List.reverseRecOn with
  | nil => exact (inputAfter_nil display.input).symm
  | append_singleton pressed c => simp [displayAfter]

theorem result_pressChars (display : Display) {pressed : List Char}
    (hp : ∀ c ∈ pressed, Text.isBlank c = false) :
    (pressChars display pressed).result = displayAfter display pressed := by
  induction pressed using List.reverseRecOn with
  | nil => rfl
  | append_singleton pressed c ih =>
    have hinput : (pressChars display pressed).result.input = inputAfter display.input pressed := by
      rw [ih fun d hd => hp d (List.mem_append_left _ hd), input_displayAfter]
    rw [result_pressChars_concat display pressed (hp c (by simp)), hinput]
    simp only [displayAfter, List.getLast?_concat]
    by_cases hc : c = 'C'
    · subst hc
      rw [press_clear, inputAfter_clear, if_neg (by decide)]
    by_cases he : c = '='
    · subst he
      rw [result_press_equals, inputAfter_equals, if_pos rfl]
    · rw [result_press_symbol _ hc he, inputAfter_symbol _ _ hc he, if_neg he]

/-- The display after a sequence of keys in closed form. -/
theorem result_pressAll (keys : String) (display : Display) :
    (pressAll keys display).result =
      let pressed := keys.toList.filter fun c => !Text.isBlank c
      if pressed = [] then display
      else
        let kept := (pressed.rtakeWhile (· ≠ 'C')).filter (· ≠ '=')
        let input := (if 'C' ∈ pressed then "" else display.input) ++ String.ofList kept
        { input := input
          result :=
            if pressed.getLast? = some '=' then
              match compute input with
              | .ok value => Number.numeral value
              | .error _ => "Error"
            else "" } := by
  have hp := isBlank_of_mem_presses keys.toList
  have hclosed : (pressAll keys display).result = displayAfter display (presses keys.toList) := by
    rw [pressAll, pressChars_presses, result_pressChars display hp]
  rw [hclosed, displayAfter]
  change _ = if presses keys.toList = [] then display else
    ⟨_, if (presses keys.toList).getLast? = some '=' then _ else ""⟩
  cases hlast : (presses keys.toList).getLast? with
  | none => rw [if_pos (List.getLast?_eq_none_iff.mp hlast)]
  | some last =>
    have hne : presses keys.toList ≠ [] := by
      intro hnil
      rw [hnil] at hlast
      cases hlast
    rw [if_neg hne]
    simp only [Option.some.injEq]
    rfl

end Reckoner.Keypad

import Reckoner.Proofs.Keypad.Typing

/-! The events of a sequence of keys, and whether it ends in a failed evaluation. -/
namespace Reckoner

namespace Log

/-- The last thing that happened is the failure of an evaluation. -/
def Logged.EndsRejected {α : Type} (l : Logged α) : Prop :=
  ∃ expression fault, l.events.getLast? = some (.rejected expression fault)

@[simp] theorem getLast?_events_evaluate (expression : String) :
    (evaluate expression).events.getLast? =
      some (match compute expression with
        | .ok value => .evaluated expression value
        | .error fault => .rejected expression fault) := by
  unfold evaluate
  cases compute expression <;> rfl

theorem endsRejected_evaluate_iff {expression : String} :
    (evaluate expression).EndsRejected ↔ ∃ fault, compute expression = .error fault := by
  unfold Logged.EndsRejected
  rw [getLast?_events_evaluate]
  cases compute expression <;> simp

end Log

namespace Keypad
open Log (Logged)

theorem events_pressChars_append (display : Display) (cs ds : List Char) :
    (pressChars display (cs ++ ds)).events =
      (pressChars display cs).events ++ (pressChars (pressChars display cs).result ds).events := by
  induction cs generalizing display with
  | nil => rfl
  | cons c rest ih =>
    simp only [List.cons_append, pressChars]
    split
    · exact ih display
    · simp only [ih, List.append_assoc]

theorem events_press_ne_nil (label input : String) : (press label input).events ≠ [] := by
  unfold press
  split
  · simp
  split <;> simp

theorem endsRejected_press_iff {c : Char} {input : String} :
    (press (String.singleton c) input).EndsRejected ↔
      c = '=' ∧ ∃ fault, compute input = .error fault := by
  by_cases he : c = '='
  · subst he
    rw [← Log.endsRejected_evaluate_iff, press_equals]
    simp [Logged.EndsRejected, List.getLast?_cons]
  by_cases hc : c = 'C'
  · subst hc
    rw [press_clear]
    simp [Logged.EndsRejected]
  · rw [press_of_ne (String.singleton_inj.not.mpr hc) (String.singleton_inj.not.mpr he)]
    simp [Logged.EndsRejected, he]

theorem endsRejected_pressChars_concat {display : Display} {pressed : List Char} {c : Char}
    (hc : Text.isBlank c = false) :
    (pressChars display (pressed ++ [c])).EndsRejected ↔
      (press (String.singleton c) (pressChars display pressed).result.input).EndsRejected := by
  have hlast : (pressChars display (pressed ++ [c])).events =
      (pressChars display pressed).events ++
        (press (String.singleton c) (pressChars display pressed).result.input).events := by
    rw [events_pressChars_append]
    simp [pressChars, hc]
  unfold Logged.EndsRejected
  rw [hlast, List.getLast?_append_of_ne_nil _ (events_press_ne_nil _ _)]

/-- Keys end in a failed evaluation if the last of them asks for a value that is not there. -/
theorem endsRejected_pressAll_iff {keys : String} {display : Display} :
    (pressAll keys display).EndsRejected ↔
      (presses keys.toList).getLast? = some '=' ∧
        ∃ fault, compute (inputAfter display.input (presses keys.toList)) = .error fault := by
  have hblank := isBlank_of_mem_presses keys.toList
  rw [pressAll, pressChars_presses]
  cases hp : presses keys.toList using List.reverseRecOn with
  | nil => simp [Logged.EndsRejected, pressChars]
  | append_singleton pressed c =>
    rw [hp] at hblank
    have hbefore := result_pressChars display fun d hd => hblank d (List.mem_append_left [c] hd)
    rw [endsRejected_pressChars_concat (hblank c (by simp)), endsRejected_press_iff, hbefore,
      input_displayAfter, List.getLast?_concat, Option.some_inj]
    refine and_congr_right fun hc => ?_
    rw [hc, inputAfter_equals]

end Keypad

end Reckoner

import Reckoner.Keypad.Layout
import Reckoner.Log.Evaluation

/-! What the calculator shows, and how pressing buttons changes it. -/
namespace Reckoner

/-- What has been typed so far, and the last result as long as it belongs to it. -/
structure Display where
  input : String := ""
  result : String := ""
  deriving DecidableEq, Repr

def Display.screen (d : Display) : String := if d.result = "" then d.input else d.result

namespace Keypad
open Log (Logged Event)

/-- Clears, evaluates the input, or appends the label to it. Only evaluating shows a result. -/
def press (label input : String) : Logged Display :=
  if label = String.singleton clear then ⟨{}, [.pressed label input]⟩
  else if label = String.singleton equals then
    let evaluation := Log.evaluate input
    ⟨⟨input, evaluation.result.text⟩, .pressed label input :: evaluation.events⟩
  else ⟨{ input := input ++ label }, [.pressed label input]⟩

def pressChars (display : Display) : List Char → Logged Display
  | [] => ⟨display, []⟩
  | c :: rest =>
    if Text.isBlank c then pressChars display rest
    else
      let pressed := press (String.singleton c) display.input
      let final := pressChars pressed.result rest
      ⟨final.result, pressed.events ++ final.events⟩

theorem pressChars_append (display : Display) (cs ds : List Char) :
    (pressChars display (cs ++ ds)).result =
      (pressChars (pressChars display cs).result ds).result := by
  induction cs generalizing display with
  | nil => rfl
  | cons c rest ih =>
    simp only [List.cons_append, pressChars]
    split
    · exact ih display
    · exact ih _

def pressAll (keys : String) (display : Display) : Logged Display :=
  pressChars display keys.toList

end Keypad

end Reckoner

import Reckoner.Keypad.Display
import Reckoner.Log.Logger

/-! Sessions: a display and a logger that change from step to step. -/
namespace Reckoner

inductive Step where
  | press (label : String)
  | keys (keys : String)
  | set (display : Display)
  | evaluate (expression : String)
  | configure (level : Log.LevelChoice)

structure Session where
  display : Display := {}
  logger : Log.Logger := {}

/-- What one step shows: the lines it writes, the outcome if it evaluates an expression, and the
level that it could not set. -/
structure StepReport where
  lines : List String := []
  outcome? : Option Outcome := none
  unknownLevel? : Option Log.UnknownLevel := none

namespace Session

def respond (display : Display) : Step → Log.Logged Display
  | .press label => Keypad.press label display.input
  | .keys keys => Keypad.pressAll keys display
  | .set display => ⟨display, []⟩
  | .evaluate expression => ⟨display, (Log.evaluate expression).events⟩
  | .configure _ => ⟨display, []⟩

def step (s : Session) (step : Step) : Session × StepReport :=
  let response := respond s.display step
  let lines := s.logger.lines response.events
  match step with
  | .configure level =>
    let (logger, unknownLevel?) := s.logger.configure level
    (⟨response.result, logger⟩, { lines, unknownLevel? })
  | .evaluate expression =>
    (⟨response.result, s.logger⟩, { lines, outcome? := some (.ofExpression expression) })
  | _ => (⟨response.result, s.logger⟩, { lines })

def trace (s : Session) : List Step → List (Session × StepReport)
  | [] => []
  | step :: rest =>
    let next := s.step step
    next :: next.1.trace rest

end Session

end Reckoner

import Reckoner.Log.Event
import Reckoner.Log.Level

/-! The logger decides which records are written. It starts without a handler and without a level.
-/
namespace Reckoner.Log

def loggerName : String := "basic_calculator"

def recordLayout : String := "%(asctime)s [%(levelname)s] %(name)s: %(message)s"

/-- A level of zero counts as not set. -/
structure Logger where
  handlers : Nat := 0
  level : Int := 0
  deriving DecidableEq, Repr

namespace Logger

/-- The least severity that is written. Without a level of its own that is a warning. -/
def threshold (l : Logger) : Int := if l.level = 0 then warningLevel else l.level

def line (e : Event) : String := "[" ++ e.severity.name ++ "] " ++ loggerName ++ ": " ++ e.text

def linesOf (l : Logger) (e : Event) : List String :=
  if l.threshold ≤ e.severity.level then List.replicate l.handlers (line e) else []

def lines (l : Logger) (events : List Event) : List String := events.flatMap l.linesOf

/-- Adds a handler unless there is one, then sets the level. A level that is refused leaves the old
one in place, but the handler stays. -/
def configure (l : Logger) (choice : LevelChoice) : Logger × Option UnknownLevel :=
  let handlers := if l.handlers = 0 then 1 else l.handlers
  match choice.resolve with
  | .ok level => (⟨handlers, level⟩, none)
  | .error e => (⟨handlers, l.level⟩, some e)

theorem lines_eq_nil_of_handlers {l : Logger} (h : l.handlers = 0) (es : List Event) :
    l.lines es = [] := by
  simp [lines, linesOf, h]

@[simp] theorem handlers_configure (l : Logger) (choice : LevelChoice) :
    (l.configure choice).1.handlers = max 1 l.handlers := by
  simp only [configure]
  split <;> dsimp only <;> split <;> omega

end Logger

end Reckoner.Log

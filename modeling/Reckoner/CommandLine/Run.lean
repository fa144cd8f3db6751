import Reckoner.CommandLine.Invocation
import Reckoner.Keypad.Display
import Reckoner.Log.Logger

/-! What a run of the calculator prints, logs and returns. -/
namespace Reckoner

namespace Arguments

def screen (a : Arguments) : Log.Logged String :=
  match a.expression with
  | some expression =>
    let evaluation := Log.evaluate expression
    ⟨evaluation.result.text, evaluation.events⟩
  | none =>
    let pressed := Keypad.pressAll (a.keys.getD "") {}
    ⟨pressed.result.screen, pressed.events⟩

end Arguments

namespace CommandLine

def helpText : String :=
  "usage: basic-calculator [-h] [-e EXPRESSION] [--log-level LOG_LEVEL] [keys]\n" ++
  "\n" ++
  "Basic arithmetic calculator\n" ++
  "\n" ++
  "positional arguments:\n" ++
  "  keys                  Button presses to replay, e.g. '12+3*4='\n" ++
  "\n" ++
  "options:\n" ++
  "  -h, --help            show this help message and exit\n" ++
  "  -e EXPRESSION, --expression EXPRESSION\n" ++
  "                        Evaluate an expression directly instead of pressing\n" ++
  "                        buttons\n" ++
  "  --log-level LOG_LEVEL\n" ++
  "                        Logging level (DEBUG, INFO, WARNING, ERROR, CRITICAL)\n"

def misuseCode : Nat := 2

structure Answer where
  exitCode : Nat
  output : String
  lines : List String
  deriving DecidableEq, Repr

/-- Logs the start and all that happens up to the screen, and prints the screen on a line. The code
is 1 exactly when the screen shows an error. -/
def Answer.ofArguments (a : Arguments) : Answer :=
  let (logger, _) := Log.Logger.configure {} (.name a.logLevel)
  let screen := a.screen
  { exitCode := if screen.result = Outcome.errorText then 1 else 0
    output := screen.result ++ "\n"
    lines := logger.lines (.started a.settings :: screen.events) }

/-- Arguments that are not accepted print nothing, and a request for help the help text alone. -/
def Answer.ofInvocation : Invocation → Answer
  | .help => ⟨0, helpText, []⟩
  | .misused _ | .refused _ => ⟨misuseCode, "", []⟩
  | .accepted a => ofArguments a

end CommandLine

end Reckoner

import Reckoner.Expression.Outcome

/-! What the calculator reports about its work: events, their severity and the text of their
records. -/
namespace Reckoner.Log

inductive Severity where
  | debug
  | info
  deriving DecidableEq, Repr

namespace Severity

def level : Severity → Int
  | debug => 10
  | info => 20

def name : Severity → String
  | debug => "DEBUG"
  | info => "INFO"

end Severity

inductive Event where
  | evaluating (expression : String)
  | evaluated (expression : String) (value : Float)
  | rejected (expression : String) (fault : Fault)
  | pressed (label input : String)
  | started (settings : List (String × String))

def settingsText (settings : List (String × String)) : String :=
  let entry (s : String × String) : String := Text.quote s.1 ++ ": " ++ Text.quote s.2
  "\x7b" ++ ", ".intercalate (settings.map entry) ++ "\x7d"

namespace Event

/-- Rejections and the start of a run are informative, everything else serves debugging. -/
def severity : Event → Severity
  | rejected _ _ | started _ => .info
  | evaluating _ | evaluated _ _ | pressed _ _ => .debug

/-- All that a user has entered is quoted. -/
def text : Event → String
  | evaluating expression => "🧮🏁 Evaluating " ++ Text.quote expression
  | evaluated expression value =>
    "🧮✅ " ++ Text.quote expression ++ " = " ++ Number.numeral value
  | rejected expression fault =>
    "🧮❌ Rejected " ++ Text.quote expression ++ ": " ++ (fault.error expression).message
  | pressed label input =>
    "🔘 Button " ++ Text.quote label ++ " pressed with input " ++ Text.quote input
  | started settings => "🖥️ Calculator started with " ++ settingsText settings

end Event

end Reckoner.Log

import Reckoner.Form.Assignment
import Reckoner.Form.Field
import Reckoner.Keypad.Layout
import Reckoner.Log.Level
import Reckoner.Text.CharSet

/-! What a run of the calculator is asked to do: press keys or evaluate an expression, and at which
level to log. -/
namespace Reckoner
open Form

structure Arguments where
  keys : Option String
  expression : Option String
  logLevel : String
  deriving DecidableEq, Repr

namespace Arguments

/-- Arguments may be changed after they have been checked. -/
def record : RecordKind := ⟨"CliArgs", false⟩

def defaultLevel : String := "WARNING"

def unknownKeys (keys : String) : List Char :=
  Text.charSet (keys.toList.filter fun c => !Keypad.isKey c)

def readKeys : Reader (Option String) := fun value => do
  match ← textOrNull value with
  | none => return none
  | some keys =>
    let unknown := unknownKeys keys
    if unknown.isEmpty then return some keys
    else throw (.refused (.unknownButtons unknown))

/-- Level names may be written in small letters and are kept in capitals. -/
def readLevel : Reader String := fun value => do
  let name ← text value
  let capitals := Text.capitals name
  if capitals ∈ Log.chosenNames then return capitals
  else throw (.refused (.unknownLevel name))

/-- The calculator checks the keys, the level, and that there are keys or an expression but not
both. That it comes to the last check only when every single field is in order, and that the
defects of all fields are reported together, is the way of the validation package. -/
def ofForm (form : Form) : Checked Arguments :=
  match both (optional form "keys" none readKeys)
      (both (optional form "expression" none textOrNull)
        (optional form "log_level" defaultLevel readLevel)) with
  | .error defects => .error defects
  | .ok (keys, expression, logLevel) =>
    if keys.isNone == expression.isNone then .error [⟨none, .refused .notExactlyOne⟩]
    else .ok ⟨keys, expression, logLevel⟩

private def textValue : Option String → Value
  | none => .null
  | some s => .text s

def toForm (a : Arguments) : Form :=
  [("keys", textValue a.keys), ("expression", textValue a.expression),
    ("log_level", .text a.logLevel)]

def check (keys expression : Option String) (logLevel : String) : Checked Arguments :=
  ofForm (toForm ⟨keys, expression, logLevel⟩)

def settings (a : Arguments) : List (String × String) :=
  (a.keys.map (Prod.mk "keys")).toList ++ (a.expression.map (Prod.mk "expression")).toList ++
    [("log_level", a.logLevel)]

end Arguments

end Reckoner

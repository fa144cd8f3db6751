import Reckoner.Form.Assignment
import Reckoner.Form.Field
import Reckoner.Keypad.Display

/-! Outcomes and displays built from forms. Fields that a record does not have are passed over, and
a record once built does not change. Evaluations and presses make their records directly; each of
them is the one that its own fields build. -/
namespace Reckoner
open Form

namespace Success

def record : RecordKind := ⟨"EvaluationSuccess", true⟩

def ofForm (form : Form) : Checked Success :=
  (both (optional form "ok" true (constant true))
    (both (required form "expression" text) (required form "result" number))).map
    fun (_, expression, value) => ⟨expression, value⟩

def toForm (s : Success) : Form :=
  [("ok", .boolean true), ("expression", .text s.expression), ("result", .real s.value)]

@[simp] theorem ofForm_toForm (s : Success) : ofForm s.toForm = .ok s := rfl

end Success

namespace Failure

def record : RecordKind := ⟨"EvaluationFailure", true⟩

def ofForm (form : Form) : Checked Failure :=
  (both (optional form "ok" false (constant false))
    (both (required form "expression" text)
      (both (required form "error" errorKind) (optional form "message" "" text)))).map
    fun (_, expression, kind, detail) => ⟨expression, kind, detail⟩

def toForm (f : Failure) : Form :=
  [("ok", .boolean false), ("expression", .text f.expression), ("error", .text f.kind.name),
    ("message", .text f.detail)]

@[simp] theorem ofForm_toForm (f : Failure) : ofForm f.toForm = .ok f := by
  have hkind : errorKind (.text f.kind.name) = .ok f.kind := by simp [errorKind]
  have hlookup : f.toForm.lookup "error" = some (.text f.kind.name) := rfl
  have herror : required f.toForm "error" errorKind = .ok f.kind := by
    rw [required_of_lookup hlookup, hkind]
    rfl
  unfold ofForm
  rw [herror]
  rfl

end Failure

namespace Display

def record : RecordKind := ⟨"CalculatorState", true⟩

def ofForm (form : Form) : Checked Display :=
  (both (optional form "input_text" "" text) (optional form "display_text" "" text)).map
    fun (input, result) => ⟨input, result⟩

def toForm (d : Display) : Form :=
  [("input_text", .text d.input), ("display_text", .text d.result)]

@[simp] theorem ofForm_toForm (d : Display) : ofForm d.toForm = .ok d := rfl

end Display

end Reckoner

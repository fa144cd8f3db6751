import Reckoner.Expression.Fault
import Reckoner.Form.Value

/-! Reading single fields of a form, and gathering the defects of several. A record says which
fields it has, of which types, and what stands in for one that is not there. The rest is the way of
the validation package: every field is read, also after a defect in another one, all defects are
kept in the order of the fields, and what stands in for a field is not checked itself. -/
namespace Reckoner.Form

abbrev Reader (α : Type) := Value → Except Complaint α

def text : Reader String
  | .text s => .ok s
  | _ => .error .notText

def textOrNull : Reader (Option String)
  | .null => .ok none
  | .text s => .ok (some s)
  | _ => .error .notText

/-- As the validation package reads them, integers must lie in the range of doubles, truth values
count as one and zero, and texts must denote a number. -/
def number : Reader Float
  | .real x => .ok x
  | .boolean b => .ok (if b then 1.0 else 0.0)
  | .integer n =>
    let rank := Number.nearestRank n.natAbs 1
    if rank = Number.infinityRank then .error .notNumber
    else .ok (Number.ofRank (n < 0) rank)
  | .text s =>
    match Number.ofText? s with
    | some x => .ok x
    | none => .error .unreadableNumber
  | .null | .compound => .error .notNumber

/-- Accepts one truth value, also as the number that the validation package takes for it. -/
def constant (expected : Bool) : Reader Bool := fun value =>
  let agrees :=
    match value with
    | .boolean b => b == expected
    | .integer n => n == (if expected then 1 else 0)
    | .real x => x == (if expected then 1.0 else 0.0)
    | _ => false
  if agrees then .ok expected else .error (.notConstant expected)

def errorKind : Reader ErrorKind
  | .text s =>
    match ErrorKind.named? s with
    | some kind => .ok kind
    | none => .error .notErrorKind
  | _ => .error .notErrorKind

def required (form : Form) (field : String) (read : Reader α) : Checked α :=
  match form.lookup field with
  | none => .error [⟨some field, .missing⟩]
  | some value => (read value).mapError fun complaint => [⟨some field, complaint⟩]

/-- Reads a field for which `absent` stands in, unchecked, when it is not there. -/
def optional (form : Form) (field : String) (absent : α) (read : Reader α) : Checked α :=
  match form.lookup field with
  | none => .ok absent
  | some value => (read value).mapError fun complaint => [⟨some field, complaint⟩]

section Lookup
variable {form : Form} {field : String} {value : Value} (h : form.lookup field = some value)
include h

theorem required_of_lookup (read : Reader α) :
    required form field read =
      (read value).mapError fun complaint => [⟨some field, complaint⟩] := by
  rw [required, h]

theorem optional_of_lookup (absent : α) (read : Reader α) :
    optional form field absent read =
      (read value).mapError fun complaint => [⟨some field, complaint⟩] := by
  rw [optional, h]

end Lookup

/-- Both results, or the defects of both sides. -/
def both : Checked α → Checked β → Checked (α × β)
  | .ok a, .ok b => .ok (a, b)
  | .ok _, .error fs => .error fs
  | .error es, .ok _ => .error es
  | .error es, .error fs => .error (es ++ fs)

@[simp] theorem both_eq_ok_iff {x : Checked α} {y : Checked β} {a : α} {b : β} :
    both x y = .ok (a, b) ↔ x = .ok a ∧ y = .ok b := by
  cases x <;> cases y <;> simp [both]

end Reckoner.Form

import Reckoner.Form.Value
import Reckoner.Text.Quoted

/-! Assigning to a record after it has been built: which names take a value, and why others do not.
Which records are frozen is up to them; all other rules and the messages are those of the validation
package. -/
namespace Reckoner.Form

structure RecordKind where
  name : String
  frozen : Bool
  deriving DecidableEq, Repr

inductive AssignmentError where
  | frozen (field : String)
  | readOnly (record field : String)
  | unknownField (record field : String)
  deriving DecidableEq, Repr

def AssignmentError.message : AssignmentError → String
  | frozen _ => Complaint.frozen.message
  | readOnly record field =>
    "property " ++ Text.quote field ++ " of " ++ Text.quote record ++ " object has no setter"
  | unknownField record field =>
    "\"" ++ record ++ "\" object has no field \"" ++ field ++ "\""

def isPrivate (name : String) : Bool := name.toList.head? == some '_'

/-- The names under which a record tells about its own fields. -/
def viewNames : List String := ["model_extra", "model_fields_set"]

/-- Replaces the value of a field without checking it. A private name takes any value, also in a
frozen record, and leaves the fields as they are. -/
def assign {α : Type} (kind : RecordKind) (fields : List (String × α)) (name : String)
    (value : α) : Except AssignmentError (List (String × α)) :=
  if isPrivate name then .ok fields
  else if kind.frozen then .error (.frozen name)
  else if name ∈ viewNames then .error (.readOnly kind.name name)
  else if name ∈ fields.map Prod.fst then
    .ok (fields.map fun field => if field.1 = name then (name, value) else field)
  else .error (.unknownField kind.name name)

theorem names_of_assign {α : Type} {kind : RecordKind} {fields changed : List (String × α)}
    {name : String} {value : α} (h : assign kind fields name value = .ok changed) :
    changed.map Prod.fst = fields.map Prod.fst := by
  simp only [assign] at h
  split at h
  · cases h; rfl
  split at h
  · cases h
  split at h
  · cases h
  split at h
  · cases h
    rw [List.map_map]
    refine List.map_congr_left fun field _ => ?_
    simp only [Function.comp]
    split
    · next hname => exact hname.symm
    · rfl
  · cases h

theorem eq_of_assign_frozen {α : Type} {kind : RecordKind} {fields changed : List (String × α)}
    {name : String} {value : α} (hkind : kind.frozen = true)
    (h : assign kind fields name value = .ok changed) : changed = fields := by
  simp only [assign, hkind, if_true] at h
  split at h <;> cases h
  rfl

end Reckoner.Form

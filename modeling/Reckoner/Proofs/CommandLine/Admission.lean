import Reckoner.CommandLine.Run

/-! What every check of the arguments ensures, whether they come from a form or from the command
line. -/
namespace Reckoner

namespace Form

theorem of_optional_eq_ok {α : Type} {form : Form} {field : String} {absent x : α}
    {read : Reader α} (h : optional form field absent read = .ok x) :
    x = absent ∨ ∃ value, read value = .ok x := by
  unfold optional at h
  split at h
  · exact .inl (Except.ok.inj h).symm
  · next value _ =>
    refine .inr ⟨value, ?_⟩
    cases hread : read value with
    | ok y =>
      rw [hread] at h
      cases h
      rfl
    | error complaint =>
      rw [hread] at h
      cases h

end Form

namespace Arguments
open Form

@[simp] theorem unknownKeys_eq_nil_iff {keys : String} :
    unknownKeys keys = [] ↔ ∀ c ∈ keys.toList, Keypad.isKey c = true := by
  constructor
  · intro h c hc
    cases hkey : Keypad.isKey c with
    | true => rfl
    | false =>
      have hmem : c ∈ unknownKeys keys :=
        Text.mem_charSet.mpr (List.mem_filter.mpr ⟨hc, by simp [hkey]⟩)
      rw [h] at hmem
      cases hmem
  · intro h
    refine List.eq_nil_iff_forall_not_mem.mpr fun c hc => ?_
    obtain ⟨hmem, hkey⟩ := List.mem_filter.mp (Text.mem_charSet.mp hc)
    simp [h c hmem] at hkey

@[simp] theorem readKeys_text (keys : String) :
    readKeys (.text keys) =
      if unknownKeys keys = [] then .ok (some keys)
      else .error (.refused (.unknownButtons (unknownKeys keys))) := by
  simp only [← List.isEmpty_iff]
  rfl

theorem isKey_of_readKeys {value : Value} {keys : String}
    (h : readKeys value = .ok (some keys)) : ∀ c ∈ keys.toList, Keypad.isKey c = true := by
  cases value with
  | text s =>
    rw [readKeys_text] at h
    split at h
    · next hunknown =>
      cases h
      exact unknownKeys_eq_nil_iff.mp hunknown
    · cases h
  | null => cases h
  | boolean | integer | real | compound => cases h

@[simp] theorem readLevel_text (name : String) :
    readLevel (.text name) =
      if Text.capitals name ∈ Log.chosenNames then .ok (Text.capitals name)
      else .error (.refused (.unknownLevel name)) := rfl

theorem mem_chosenNames_of_readLevel {value : Value} {name : String}
    (h : readLevel value = .ok name) : name ∈ Log.chosenNames := by
  cases value with
  | text s =>
    rw [readLevel_text] at h
    split at h
    · next hmem =>
      cases h
      exact hmem
    · cases h
  | null | boolean | integer | real | compound => cases h

/-- Only keys of the keypad, a level that can be chosen, and one thing to do. -/
structure Admitted (a : Arguments) : Prop where
  isKey : ∀ keys, a.keys = some keys → ∀ c ∈ keys.toList, Keypad.isKey c = true
  level : a.logLevel ∈ Log.chosenNames
  exactlyOne : a.keys = none ↔ a.expression.isSome = true

theorem admitted_of_ofForm {form : Form} {a : Arguments} (h : ofForm form = .ok a) :
    a.Admitted := by
  unfold ofForm at h
  split at h
  · cases h
  · next keys expression logLevel hfields =>
    obtain ⟨hkeys, hrest⟩ := both_eq_ok_iff.mp hfields
    obtain ⟨-, hlevel⟩ := both_eq_ok_iff.mp hrest
    split at h
    · cases h
    · next hone =>
      cases h
      refine ⟨?_, ?_, ?_⟩
      · rintro pressed rfl
        obtain hnone | ⟨value, hread⟩ := of_optional_eq_ok hkeys
        · cases hnone
        · exact isKey_of_readKeys hread
      · obtain rfl | ⟨value, hread⟩ := of_optional_eq_ok hlevel
        · show defaultLevel ∈ Log.chosenNames
          decide
        · exact mem_chosenNames_of_readLevel hread
      · cases keys <;> cases expression <;> simp_all

theorem ofForm_keys {keys : String} (h : ∀ c ∈ keys.toList, Keypad.isKey c = true) :
    ofForm [("keys", .text keys)] = .ok ⟨some keys, none, defaultLevel⟩ := by
  have hread : readKeys (.text keys) = .ok (some keys) := by
    rw [readKeys_text, if_pos (unknownKeys_eq_nil_iff.mpr h)]
  have hlookup : List.lookup "keys" [("keys", Value.text keys)] = some (.text keys) := rfl
  have hfield : optional [("keys", .text keys)] "keys" none readKeys = .ok (some keys) := by
    rw [optional_of_lookup hlookup, hread]
    rfl
  unfold ofForm
  rw [hfield]
  rfl

theorem ofForm_expression (expression : String) :
    ofForm [("expression", .text expression)] = .ok ⟨none, some expression, defaultLevel⟩ := rfl

end Arguments

namespace CommandLine

theorem admitted_of_accepted {argv : List String} {a : Arguments}
    (h : Invocation.ofTexts argv = .accepted a) : a.Admitted := by
  unfold Invocation.ofTexts at h
  split at h
  · cases h
  · cases h
  split at h
  · cases h
  split at h
  · cases h
  · next hform =>
    cases h
    exact Arguments.admitted_of_ofForm hform

end CommandLine

/-- The level that admitted arguments ask for can be set. -/
theorem Arguments.Admitted.unknownLevel?_configure {a : Arguments} (h : a.Admitted)
    (logger : Log.Logger) : (logger.configure (.name a.logLevel)).2 = none := by
  have hall : ∀ name ∈ Log.chosenNames,
      (Log.LevelChoice.name name).resolve.toOption.isSome = true := by
    decide
  have hsome := hall _ h.level
  unfold Log.Logger.configure
  cases hresolve : (Log.LevelChoice.name a.logLevel).resolve with
  | ok level => rfl
  | error e =>
    rw [hresolve] at hsome
    cases hsome

end Reckoner

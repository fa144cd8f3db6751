import Reckoner.Proofs.CommandLine.Admission

/-! The verdict on arguments that have the right types. They are accepted or refused for what is
wrong with each of them, and only when nothing is wrong with any of them does it count which of them
are given. -/
namespace Reckoner.Arguments
open Form

variable (keys expression : Option String) (logLevel : String)

/-- The characters among the keys that are not on the keypad, if there are keys. -/
def strangers : List Char := (keys.map unknownKeys).getD []

theorem mem_strangers_iff {c : Char} :
    c ∈ strangers keys ↔ ∃ pressed, keys = some pressed ∧ c ∈ pressed.toList ∧
      Text.isBlank c = false ∧ c ∉ Keypad.labels := by
  cases keys with
  | none => simp [strangers]
  | some pressed =>
    simp [strangers, unknownKeys, Keypad.isKey]

theorem pairwise_strangers : (strangers keys).Pairwise (· < ·) := by
  cases keys with
  | none => exact .nil
  | some pressed => exact Text.pairwise_charSet _

theorem strangers_eq_nil_iff :
    strangers keys = [] ↔ ∀ pressed, keys = some pressed → ∀ c ∈ pressed.toList,
      Text.isBlank c = true ∨ c ∈ Keypad.labels := by
  cases keys with
  | none => simp [strangers]
  | some pressed =>
    simp [strangers, Keypad.isKey]

theorem optional_keys :
    optional (toForm ⟨keys, expression, logLevel⟩) "keys" none readKeys =
      if strangers keys = [] then .ok keys
      else .error [⟨some "keys", .refused (.unknownButtons (strangers keys))⟩] := by
  cases keys with
  | none => rfl
  | some pressed =>
    have hlookup : (toForm ⟨some pressed, expression, logLevel⟩).lookup "keys" =
        some (.text pressed) := rfl
    rw [optional_of_lookup hlookup, readKeys_text]
    by_cases h : unknownKeys pressed = []
    · have hnone : strangers (some pressed) = [] := h
      rw [if_pos h, if_pos hnone]
      rfl
    · have hsome : strangers (some pressed) ≠ [] := h
      rw [if_neg h, if_neg hsome]
      rfl

theorem optional_expression :
    optional (toForm ⟨keys, expression, logLevel⟩) "expression" none textOrNull =
      .ok expression := by
  cases expression <;> rfl

theorem optional_level :
    optional (toForm ⟨keys, expression, logLevel⟩) "log_level" defaultLevel readLevel =
      if Text.capitals logLevel ∈ Log.chosenNames then .ok (Text.capitals logLevel)
      else .error [⟨some "log_level", .refused (.unknownLevel logLevel)⟩] := by
  have hlookup : (toForm ⟨keys, expression, logLevel⟩).lookup "log_level" =
      some (.text logLevel) := rfl
  rw [optional_of_lookup hlookup, readLevel_text]
  by_cases h : Text.capitals logLevel ∈ Log.chosenNames
  · rw [if_pos h, if_pos h]
    rfl
  · rw [if_neg h, if_neg h]
    rfl

/-- All that is wrong, in the order of the fields. -/
def defects : List Defect :=
  (if strangers keys = [] then []
    else [⟨some "keys", .refused (.unknownButtons (strangers keys))⟩]) ++
  (if Text.capitals logLevel ∈ Log.chosenNames then []
    else [⟨some "log_level", .refused (.unknownLevel logLevel)⟩]) ++
  (if strangers keys = [] ∧ Text.capitals logLevel ∈ Log.chosenNames ∧
      keys.isSome = expression.isSome then [⟨none, .refused .notExactlyOne⟩]
    else [])

theorem check_eq :
    check keys expression logLevel =
      if defects keys expression logLevel = [] then
        .ok ⟨keys, expression, Text.capitals logLevel⟩
      else .error (defects keys expression logLevel) := by
  have hfields : check keys expression logLevel = ofForm (toForm ⟨keys, expression, logLevel⟩) :=
    rfl
  rw [hfields, ofForm, optional_keys, optional_expression, optional_level]
  have hnone : (keys.isNone == expression.isNone) = (keys.isSome == expression.isSome) := by
    cases keys <;> cases expression <;> rfl
  by_cases hkeys : strangers keys = []
  · by_cases hlevel : Text.capitals logLevel ∈ Log.chosenNames
    · by_cases hone : keys.isSome = expression.isSome
      · simp [hkeys, hlevel, hone, hnone, both, defects]
      · simp [hkeys, hlevel, hone, hnone, both, defects]
    · simp [hkeys, hlevel, both, defects]
  · by_cases hlevel : Text.capitals logLevel ∈ Log.chosenNames
    · simp [hkeys, hlevel, both, defects]
    · simp [hkeys, hlevel, both, defects]

theorem defects_eq_nil_iff :
    defects keys expression logLevel = [] ↔ strangers keys = [] ∧
      Text.capitals logLevel ∈ Log.chosenNames ∧ keys.isSome ≠ expression.isSome := by
  simp only [defects, List.append_eq_nil_iff, ite_eq_left_iff, ite_eq_right_iff, reduceCtorEq,
    imp_false, Classical.not_not, not_and]
  constructor
  · rintro ⟨⟨hkeys, hlevel⟩, hone⟩
    exact ⟨hkeys, hlevel, hone hkeys hlevel⟩
  · rintro ⟨hkeys, hlevel, hone⟩
    exact ⟨⟨hkeys, hlevel⟩, fun _ _ => hone⟩

theorem check_eq_ok_iff {a : Arguments} :
    check keys expression logLevel = .ok a ↔
      (strangers keys = [] ∧ Text.capitals logLevel ∈ Log.chosenNames ∧
        keys.isSome ≠ expression.isSome) ∧ a = ⟨keys, expression, Text.capitals logLevel⟩ := by
  rw [check_eq, ← defects_eq_nil_iff]
  by_cases h : defects keys expression logLevel = []
  · rw [if_pos h]
    simp [h, eq_comm]
  · rw [if_neg h]
    simp [h]

theorem capitals_of_mem_chosenNames {name : String} (h : name ∈ Log.chosenNames) :
    Text.capitals name = name := by
  have hall : ∀ name ∈ Log.chosenNames, Text.capitals name = name := by decide
  exact hall name h

/-- How a level is chosen does not depend on the capitals of letters that no level is named with. -/
theorem eq_iff_capitals_eq {full : Char → List Char} (h : Text.Completes full) {level : String}
    (hlevel : level ∈ Log.chosenNames) (name : String) :
    String.ofList (name.toList.flatMap full) = level ↔ Text.capitals name = level := by
  have hall :
      Log.chosenNames.all (fun level => level.toList.all fun d => d.toNat < 0x80) = true := by
    decide
  exact Text.capitals_eq_iff_of_completes h (List.all_eq_true.mp hall level hlevel) name

/-- Arguments are accepted exactly if all keys are on the keypad, the level in capitals is one that
can be chosen, and either keys or an expression is given; they are kept as they are but for the
level, and accepted again. Otherwise the unknown keys, an unknown level and, if these are in order,
the wrong choice of what to do are reported. -/
theorem check_names_every_fault :
    let name := Text.capitals logLevel
    (∀ full, Text.Completes full → ∀ level ∈ Log.chosenNames,
      (String.ofList (logLevel.toList.flatMap full) = level ↔ name = level)) ∧
    (∀ a, check keys expression logLevel = .ok a ↔
      ((∀ pressed, keys = some pressed → ∀ c ∈ pressed.toList,
          Text.isBlank c = true ∨ c ∈ Keypad.labels) ∧
        name ∈ Log.chosenNames ∧ keys.isSome ≠ expression.isSome) ∧
      a = ⟨keys, expression, name⟩) ∧
    (∀ a, check keys expression logLevel = .ok a →
      check a.keys a.expression a.logLevel = .ok a) ∧
    ∃ unknown : List Char, unknown.Pairwise (· < ·) ∧
      (∀ c, c ∈ unknown ↔ ∃ pressed, keys = some pressed ∧ c ∈ pressed.toList ∧
        Text.isBlank c = false ∧ c ∉ Keypad.labels) ∧
      ∀ found, check keys expression logLevel = .error found →
        found.map (fun d => (d.field?, d.complaint.code, d.complaint.message)) =
          (if unknown = [] then [] else [(some "keys", "value_error",
            "Value error, Unknown buttons: " ++
              " ".intercalate (unknown.map String.singleton))]) ++
          (if name ∈ Log.chosenNames then [] else [(some "log_level", "value_error",
            "Value error, Unknown log level: " ++ logLevel)]) ++
          (if unknown = [] ∧ name ∈ Log.chosenNames ∧ keys.isSome = expression.isSome then
            [(none, "value_error",
              "Value error, Provide either button keys or --expression, not both")]
          else []) := by
  intro name
  refine ⟨?_, ?_, ?_, strangers keys, pairwise_strangers keys, fun _ => mem_strangers_iff keys,
    ?_⟩
  · intro full hfull level hlevel
    exact eq_iff_capitals_eq hfull hlevel logLevel
  · intro a
    rw [check_eq_ok_iff, strangers_eq_nil_iff]
  · intro a h
    obtain ⟨⟨hkeys, hlevel, hone⟩, rfl⟩ := (check_eq_ok_iff keys expression logLevel).mp h
    have hname := capitals_of_mem_chosenNames hlevel
    refine (check_eq_ok_iff keys expression _).mpr ⟨⟨hkeys, ?_, hone⟩, ?_⟩
    · rwa [hname]
    · rw [hname]
  · intro found h
    have hfound : found = defects keys expression logLevel := by
      rw [check_eq] at h
      split at h
      · cases h
      · exact (Except.error.inj h).symm
    rw [hfound, defects, List.map_append, List.map_append]
    congr 1
    · congr 1
      · split <;> rfl
      · split <;> rfl
    · split <;> rfl

/-- A level written with a dotless i, beside an expression that is empty and yet given, and keys
that are none together with a level that is none. -/
theorem check_names_every_fault_dotless :
    check none (some "") "crıtical" = .ok ⟨none, some "", "CRITICAL"⟩ ∧
      check none (some "") "CRITICAL" = .ok ⟨none, some "", "CRITICAL"⟩ ∧
      ∃ found, check (some "x7 %x") none "loud" = .error found ∧
        found.map (fun d => (d.field?, d.complaint.message)) =
          [(some "keys", "Value error, Unknown buttons: % x"),
            (some "log_level", "Value error, Unknown log level: loud")] := by
  obtain ⟨-, hok, hagain, -⟩ := check_names_every_fault none (some "") "crıtical"
  have haccepted := (hok ⟨none, some "", "CRITICAL"⟩).mpr
    ⟨⟨nofun, by decide +kernel, by decide⟩, by decide +kernel⟩
  refine ⟨haccepted, hagain _ haccepted, _, rfl, by decide +kernel⟩

end Reckoner.Arguments

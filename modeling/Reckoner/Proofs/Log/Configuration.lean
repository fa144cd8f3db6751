import Reckoner.Log.Logger

/-! Configuring the logger. Whatever level is asked for, there is one handler afterwards. The level
is set as well, unless the name that is asked for is one of two that are taken and yet stand for no
level. -/
namespace Reckoner.Log

/-- The number that a level name in capitals stands for. Every other text counts as a warning. -/
def numberOfName : String → Int
  | "DEBUG" => 10
  | "INFO" => 20
  | "WARNING" | "WARN" => 30
  | "ERROR" => 40
  | "CRITICAL" | "FATAL" => 50
  | "NOTSET" => 0
  | _ => 30

theorem numberOfName_eq (name : String) :
    numberOfName name = (namedLevels.lookup name).getD warningLevel := by
  unfold numberOfName
  split
  case h_9 =>
    have hnone : namedLevels.lookup name = none := by
      rw [List.lookup_eq_none_iff]
      simp_all [namedLevels]
    rw [hnone]
    rfl
  all_goals rfl

/-- A name of ASCII letters is found in a table for the same texts, whatever the other letters turn
into. -/
theorem lookup_flatMap_of_completes {full : Char → List Char} (h : Text.Completes full) {α : Type}
    {table : List (String × α)}
    (hascii : ∀ entry ∈ table, entry.1.toList.all (·.toNat < 0x80) = true) (s : String) :
    table.lookup (String.ofList (s.toList.flatMap full)) = table.lookup (Text.capitals s) := by
  induction table with
  | nil => rfl
  | cons entry rest ih =>
    obtain ⟨name, value⟩ := entry
    have hname := Text.capitals_eq_iff_of_completes h (hascii (name, value) (by simp)) s
    have hrest := ih fun other hother => hascii other (List.mem_cons_of_mem _ hother)
    by_cases heq : Text.capitals s = name
    · rw [hname.mpr heq, heq, List.lookup_cons_self]
    · have hne := mt hname.mp heq
      simp only [List.lookup_cons, beq_eq_false_iff_ne.mpr heq, beq_eq_false_iff_ne.mpr hne, hrest]

namespace LevelChoice

variable (full : Char → List Char)

/-- The level that is meant, where `full` puts names in capitals. Nothing at all and the empty text
mean a warning; a truth value is asked for as the number one or zero. -/
def meaning : LevelChoice → Int
  | unset => 30
  | number level => level
  | name text => numberOfName (String.ofList (text.toList.flatMap full))

/-- The name that is asked for is taken by something else than a level. -/
def IsTaken : LevelChoice → Prop
  | unset | number _ => False
  | name text =>
    String.ofList (text.toList.flatMap full) = "BASIC_FORMAT" ∨
      String.ofList (text.toList.flatMap full) = "_STYLES"

variable {full} (h : Text.Completes full) (choice : LevelChoice)

include h

theorem isTaken_name_iff (text : String) :
    (name text).IsTaken full ↔
      Text.capitals text = layoutName ∨ Text.capitals text = layoutTableName :=
  or_congr (Text.capitals_eq_iff_of_completes h (by decide) text)
    (Text.capitals_eq_iff_of_completes h (by decide) text)

theorem resolve_of_isTaken (htaken : choice.IsTaken full) : ∃ e, choice.resolve = .error e := by
  cases choice with
  | unset => exact htaken.elim
  | number level => exact htaken.elim
  | name text =>
    obtain hlayout | htable := (isTaken_name_iff h text).mp htaken
    · exact ⟨_, if_pos hlayout⟩
    · have hother : Text.capitals text ≠ layoutName := by
        rw [htable]
        decide
      exact ⟨_, (if_neg hother).trans (if_pos htable)⟩

theorem resolve_of_not_isTaken (hfree : ¬choice.IsTaken full) :
    choice.resolve = .ok (choice.meaning full) := by
  cases choice with
  | unset => rfl
  | number level => rfl
  | name text =>
    obtain ⟨hlayout, htable⟩ := not_or.mp (mt (isTaken_name_iff h text).mpr hfree)
    have hascii : ∀ entry ∈ namedLevels, entry.1.toList.all (·.toNat < 0x80) = true := by
      decide
    have hresolve : (name text).resolve =
        .ok ((namedLevels.lookup (Text.capitals text)).getD warningLevel) :=
      (if_neg hlayout).trans (if_neg htable)
    rw [hresolve, meaning, numberOfName_eq, lookup_flatMap_of_completes h hascii]

end LevelChoice

namespace Logger

/-- What state the logger can be in: nobody has touched it, or its level has been set, or it has
been configured. -/
inductive Attainable : Logger → Prop
  | start : Attainable {}
  | setLevel {l : Logger} (h : Attainable l) (level : Int) : Attainable { l with level }
  | configure {l : Logger} (h : Attainable l) (choice : LevelChoice) :
    Attainable (l.configure choice).1

/-- These are all states with at most one handler. -/
theorem attainable_iff {l : Logger} : l.Attainable ↔ l.handlers ≤ 1 := by
  constructor
  · intro h
    induction h with
    | start => exact Nat.zero_le 1
    | setLevel _ level ih => exact ih
    | @configure l _ choice ih =>
      rw [handlers_configure]
      omega
  · intro h
    obtain ⟨handlers, level⟩ := l
    have hcases : handlers = 0 ∨ handlers = 1 := by
      dsimp only at h
      omega
    obtain rfl | rfl := hcases
    · exact .setLevel .start level
    · exact .setLevel (.configure .start .unset) level

theorem configure_eq (l : Logger) (choice : LevelChoice) :
    l.configure choice =
      match choice.resolve with
      | .ok level => (⟨max 1 l.handlers, level⟩, none)
      | .error e => (⟨max 1 l.handlers, l.level⟩, some e) := by
  have hhandlers := l.handlers_configure choice
  unfold configure at hhandlers ⊢
  cases hresolve : choice.resolve with
  | ok level =>
    rw [hresolve] at hhandlers
    rw [← hhandlers]
  | error e =>
    rw [hresolve] at hhandlers
    rw [← hhandlers]

/-- Configuring leaves exactly one handler, in whatever state the logger is. It raises nothing and
sets the level that is meant, as long as no name is asked for that is taken by something else. Such
a name is refused and the old level stays, although the handler may be new. -/
theorem configure_sets_level {full : Char → List Char} (h : Text.Completes full) {l : Logger}
    (hl : l.Attainable) (choice : LevelChoice) :
    (l.configure choice).1.handlers = 1 ∧
    ((l.configure choice).2 = none ↔ ¬choice.IsTaken full) ∧
    (¬choice.IsTaken full → (l.configure choice).1.level = choice.meaning full) ∧
    (choice.IsTaken full → (l.configure choice).1.level = l.level) ∧
    ((l.configure choice).1.handlers ≠ l.handlers ∧ (l.configure choice).2 ≠ none ↔
      choice.IsTaken full ∧ l.handlers = 0) := by
  have hone := attainable_iff.mp hl
  have hmax : max 1 l.handlers = 1 := by omega
  have hnew : 1 ≠ l.handlers ↔ l.handlers = 0 := by omega
  by_cases htaken : choice.IsTaken full
  · obtain ⟨e, hresolve⟩ := choice.resolve_of_isTaken h htaken
    rw [configure_eq, hresolve, hmax]
    simp [htaken, hnew]
  · have hresolve := choice.resolve_of_not_isTaken h htaken
    rw [configure_eq, hresolve, hmax]
    simp [htaken]

/-- A capitalisation that knows a Greek letter as well, and a level with a dotless i in its name. -/
theorem configure_sets_level_dotless :
    let full (c : Char) : List Char := if c = 'λ' then ['Λ'] else Text.capital c
    Text.Completes full ∧ Attainable ⟨1, 10⟩ ∧ ¬(LevelChoice.name "crıtical").IsTaken full ∧
      (Logger.configure ⟨1, 10⟩ (.name "crıtical")).1.level = 50 ∧
      (Logger.configure ⟨1, 10⟩ (.name "crıtical")).2 = none := by
  intro full
  have hfull : Text.Completes full := by
    intro c
    by_cases hc : c = 'λ'
    · subst hc
      exact .inr ⟨⟨'Λ', by simp [full], by decide⟩, ⟨'λ', by decide, by decide⟩⟩
    · exact .inl (if_neg hc)
  have hl : Attainable ⟨1, 10⟩ := attainable_iff.mpr (by decide)
  have hfree : ¬(LevelChoice.name "crıtical").IsTaken full := by
    rw [LevelChoice.isTaken_name_iff hfull]
    decide
  have hcapitals : String.ofList ("crıtical".toList.flatMap full) = "CRITICAL" :=
    (Text.capitals_eq_iff_of_completes hfull (by decide) _).mpr (by decide)
  obtain ⟨-, hrefused, hlevel, -, -⟩ := configure_sets_level hfull hl (.name "crıtical")
  refine ⟨hfull, hl, hfree, ?_, hrefused.mpr hfree⟩
  rw [hlevel hfree, LevelChoice.meaning, hcapitals]
  rfl

/-- The name of the layout: the handler is added, and no level is set. -/
theorem configure_taken_name :
    (LevelChoice.name "BASIC_FORMAT").IsTaken Text.capital ∧
      ({} : Logger).configure (.name "BASIC_FORMAT") =
        (⟨1, 0⟩, some (.text "%(levelname)s:%(name)s:%(message)s")) :=
  ⟨.inl (by decide), by decide⟩

end Logger

end Reckoner.Log

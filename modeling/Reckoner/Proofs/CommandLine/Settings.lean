import Mathlib.Data.List.Induction
import Reckoner.CommandLine.Run
import Reckoner.Proofs.CommandLine.Spellings

/-! Options that are spelled out with their values attached, and the keys behind the separator. Such
a command line says exactly which arguments are meant, whatever characters the values and the keys
are made of. -/
namespace Reckoner.CommandLine

/-- An option with a value. -/
inductive Setting where
  | expression (value : String)
  | logLevel (value : String)
  deriving DecidableEq, Repr

namespace Setting

def flag : Setting → Flag
  | expression _ => .expression
  | logLevel _ => .logLevel

def spelling : Setting → String
  | expression _ => "--expression"
  | logLevel _ => "--log-level"

def value : Setting → String
  | expression value | logLevel value => value

/-- The setting as one argument. -/
def text (s : Setting) : String := s.spelling ++ "=" ++ s.value

def argument (s : Setting) : Argument := .option s.flag false (some s.value)

def expression? : Setting → Option String
  | expression value => some value
  | logLevel _ => none

def logLevel? : Setting → Option String
  | expression _ => none
  | logLevel value => some value

/-- The expression that replaces all earlier ones. -/
def lastExpression? (settings : List Setting) : Option String :=
  (settings.filterMap expression?).getLast?

def lastLevel? (settings : List Setting) : Option String :=
  (settings.filterMap logLevel?).getLast?

theorem getLast?_filterMap_concat {α : Type} (f : Setting → Option α) (settings : List Setting)
    (s : Setting) :
    ((settings ++ [s]).filterMap f).getLast? = (f s).or (settings.filterMap f).getLast? := by
  rw [List.filterMap_append, List.getLast?_append]
  cases h : f s <;> simp [h]

variable (s : Setting)

@[simp] theorem toList_text : s.text.toList = s.spelling.toList ++ '=' :: s.value.toList := by
  simp [text]

theorem text_ne_separator : s.text ≠ "--" := by
  intro h
  have hmem : '=' ∈ s.text.toList := by simp
  rw [h] at hmem
  revert hmem
  decide

@[simp] theorem spelledOut?_text : Argument.spelledOut? s.text.toList = some s.argument := by
  rw [toList_text]
  cases s with
  | expression value =>
    have hequals : '=' ∉ "--expression".toList := by decide
    exact Argument.spelledOut?_append hequals rfl value
  | logLevel value =>
    have hequals : '=' ∉ "--log-level".toList := by decide
    exact Argument.spelledOut?_append hequals rfl value

@[simp] theorem ofText_text : Argument.ofText s.text = .ok s.argument := by
  have hhead : s.text.toList.head? = some '-' := by
    cases s <;> simp [spelling]
  have hlength : s.text.toList.length ≠ 1 := by
    cases s <;> simp [spelling]
  have hlong : ¬(s.text.toList.head? ≠ some '-' ∨ s.text.toList.length = 1) :=
    not_or.mpr ⟨not_not.mpr hhead, hlength⟩
  unfold Argument.ofText
  dsimp only
  rw [if_neg hlong, spelledOut?_text]

end Setting

theorem Argument.ofTexts_settings (settings : List Setting) {texts : List String}
    {arguments : List Argument} (h : ofTexts texts = .ok arguments) :
    ofTexts (settings.map Setting.text ++ texts) =
      .ok (settings.map Setting.argument ++ arguments) := by
  induction settings with
  | nil => exact h
  | cons s rest ih =>
    rw [List.map_cons, List.cons_append, ofTexts, if_neg s.text_ne_separator, s.ofText_text, ih]
    rfl

namespace Gathered

/-- What has been gathered after one more setting. -/
def set (g : Gathered) (s : Setting) : Gathered := g.give s.flag (.text s.value)

/-- What has been gathered if nothing but texts was given, each at most once. -/
def ofTexts (keys expression logLevel? : Option String) : Gathered :=
  { keys? := keys
    expression := (expression.map .text).getD .null
    logLevel := (logLevel?.map .text).getD (.text Arguments.defaultLevel) }

theorem toForm_ofTexts (keys expression logLevel? : Option String) :
    (ofTexts keys expression logLevel?).toForm =
      Arguments.toForm ⟨keys, expression, logLevel?.getD Arguments.defaultLevel⟩ := by
  cases keys <;> cases expression <;> cases logLevel? <;> rfl

/-- Only the last setting of each option is left. -/
theorem foldl_set (settings : List Setting) :
    settings.foldl set {} =
      ofTexts none (Setting.lastExpression? settings) (Setting.lastLevel? settings) := by
  induction settings using List.reverseRecOn with
  | nil => rfl
  | append_singleton settings s ih =>
    have hexpression : Setting.lastExpression? (settings ++ [s]) =
        s.expression?.or (Setting.lastExpression? settings) :=
      Setting.getLast?_filterMap_concat Setting.expression? settings s
    have hlevel : Setting.lastLevel? (settings ++ [s]) =
        s.logLevel?.or (Setting.lastLevel? settings) :=
      Setting.getLast?_filterMap_concat Setting.logLevel? settings s
    rw [List.foldl_append, ih, hexpression, hlevel]
    cases s <;> rfl

end Gathered

theorem gather_argument (g : Gathered) {s : Setting} (h : s.value ≠ "--")
    (rest : List Argument) : gather g (s.argument :: rest) = gather (g.set s) rest := by
  have hvalue : attachedValue s.value = .text s.value := if_neg h
  have hgive : gather g (s.argument :: rest) =
      gather (g.give s.flag (attachedValue s.value)) rest := by
    cases s <;> rfl
  rw [hgive, hvalue]
  rfl

theorem gather_settings (g : Gathered) {settings : List Setting}
    (h : ∀ s ∈ settings, s.value ≠ "--") (rest : List Argument) :
    gather g (settings.map Setting.argument ++ rest) =
      gather (settings.foldl Gathered.set g) rest := by
  induction settings generalizing g with
  | nil => rfl
  | cons s settings ih =>
    rw [List.map_cons, List.cons_append, gather_argument g (h s (by simp))]
    exact ih (g.set s) fun other hother => h other (List.mem_cons_of_mem s hother)

/-- What comes of arguments that are written correctly. -/
def Invocation.ofChecked : Checked Arguments → Invocation
  | .error defects => refused defects
  | .ok a => accepted a

/-- Once nothing but texts has been gathered, what they say is checked. -/
theorem Invocation.ofTexts_of_gathered {texts : List String}
    {keys expression logLevel? : Option String}
    (h : (Argument.ofTexts texts).bind (gather {}) =
      .ok (some (.ofTexts keys expression logLevel?))) :
    ofTexts texts =
      ofChecked (Arguments.check keys expression (logLevel?.getD Arguments.defaultLevel)) := by
  unfold ofTexts
  rw [h]
  dsimp only
  rw [Gathered.toForm_ofTexts]
  change _ = ofChecked (Arguments.ofForm _)
  cases Arguments.ofForm _ <;> rfl

/-- The separator and the keys behind it. -/
def keyTexts (keys : Option String) : List String := (keys.map fun k => ["--", k]).getD []

/-- What settings and keys come to before anything is checked. -/
theorem gather_ofTexts_settings {settings : List Setting} (h : ∀ s ∈ settings, s.value ≠ "--")
    (keys : Option String) :
    (Argument.ofTexts (settings.map Setting.text ++ keyTexts keys)).bind (gather {}) =
      .ok (some (.ofTexts keys (Setting.lastExpression? settings)
        (Setting.lastLevel? settings))) := by
  cases keys with
  | none =>
    have harguments : Argument.ofTexts (keyTexts none) = .ok [] := rfl
    rw [Argument.ofTexts_settings settings harguments, Except.bind, gather_settings {} h,
      Gathered.foldl_set]
    rfl
  | some pressed =>
    have harguments : Argument.ofTexts (keyTexts (some pressed)) =
        .ok [.separator, .plain pressed] := rfl
    rw [Argument.ofTexts_settings settings harguments, Except.bind, gather_settings {} h,
      Gathered.foldl_set]
    rfl

/-- Arguments that are written as settings come to what checking the texts themselves comes to: the
keys behind the separator, the last expression, and the last level or else the default one. If they
are refused, it is for the same defects and with the exit code for misuse. -/
theorem invocation_of_settings (settings : List Setting) (keys : Option String)
    (h : ∀ s ∈ settings, s.value ≠ "--") :
    let texts := settings.map Setting.text ++ keyTexts keys
    let direct := Arguments.check keys (Setting.lastExpression? settings)
      ((Setting.lastLevel? settings).getD "WARNING")
    (∀ a, direct = .ok a → Invocation.ofTexts texts = .accepted a) ∧
    (∀ defects, direct = .error defects → Invocation.ofTexts texts = .refused defects ∧
      (Answer.ofInvocation (.ofTexts texts)).exitCode = 2) := by
  intro texts direct
  have hchecked : Invocation.ofTexts texts = .ofChecked direct :=
    Invocation.ofTexts_of_gathered (gather_ofTexts_settings h keys)
  constructor
  · intro a hok
    rw [hchecked, hok]
    rfl
  · intro defects herror
    rw [hchecked, herror]
    exact ⟨rfl, rfl⟩

/-- Values that look like options, settings that are replaced later on, and keys that consist of a
second separator. -/
theorem invocation_of_settings_dashes :
    (∀ s ∈ [Setting.expression "--help", .logLevel "-1", .expression "=", .logLevel "debug"],
      s.value ≠ "--") ∧
    Invocation.ofTexts
        ["--expression=--help", "--log-level=-1", "--expression==", "--log-level=debug"] =
      .accepted ⟨none, some "=", "DEBUG"⟩ ∧
    Invocation.ofTexts ["--log-level=-h x\n", "--", "--"] =
      .refused [⟨some "log_level", .refused (.unknownLevel "-h x\n")⟩] := by
  have hvalues : ∀ s ∈ [Setting.expression "--help", .logLevel "-1", .expression "=",
      .logLevel "debug"], s.value ≠ "--" := by
    decide
  have hvalue : ∀ s ∈ [Setting.logLevel "-h x\n"], s.value ≠ "--" := by decide
  obtain ⟨haccepted, -⟩ := invocation_of_settings _ none hvalues
  obtain ⟨-, hrefused⟩ := invocation_of_settings _ (some "--") hvalue
  exact ⟨hvalues, haccepted _ (by decide +kernel), (hrefused _ (by decide +kernel)).1⟩

end Reckoner.CommandLine

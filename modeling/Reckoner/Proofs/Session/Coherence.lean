import Reckoner.Proofs.Expression.Alphabet
import Reckoner.Proofs.Expression.Faults
import Reckoner.Proofs.Keypad.Typing
import Reckoner.Proofs.Session.Visits

/-! A result on the display always belongs to the input beside it, and the keypad types nothing that
the evaluator does not know. -/
namespace Reckoner

namespace Log

theorem rejected_mem_events_evaluate {input expression : String} {fault : Fault}
    (h : .rejected expression fault ∈ (evaluate input).events) : compute input = .error fault := by
  unfold evaluate at h
  cases hcompute : compute input with
  | ok value => simp [hcompute] at h
  | error found =>
    have hsame : expression = input ∧ fault = found := by simpa [hcompute] using h
    rw [hsame.2]

/-- The event is no failure for the sake of a stray character. -/
def Event.Lettered (event : Event) : Prop :=
  ∀ expression fault, event = .rejected expression fault → fault.kind ≠ .invalidCharacter

end Log

/-- There is no result, or it is that of the input. -/
def Display.Coherent (d : Display) : Prop := d.result = "" ∨ d.result = Keypad.shown d.input

def Display.Lettered (d : Display) : Prop := ∀ c ∈ d.input.toList, c ∈ Token.alphabet

theorem Display.lettered_blank : ({} : Display).Lettered := by
  intro c hc
  simp at hc

namespace Keypad

theorem coherent_press (label input : String) : (press label input).result.Coherent := by
  by_cases hc : label = String.singleton 'C'
  · subst hc
    exact .inl rfl
  by_cases he : label = String.singleton '='
  · subst he
    rw [result_press_equals]
    exact .inr rfl
  · rw [press_of_ne hc he]
    exact .inl rfl

theorem press_equals_of_coherent {d : Display} (h : d.Coherent) (hne : d.result ≠ "") :
    (press (String.singleton '=') d.input).result = d := by
  rw [result_press_equals, ← h.resolve_left hne]

theorem lettered_press {c : Char} (hc : c ∈ labels) {d : Display} (h : d.Lettered) :
    (press (String.singleton c) d.input).result.Lettered ∧
      ∀ event ∈ (press (String.singleton c) d.input).events, event.Lettered := by
  by_cases hclear : c = 'C'
  · subst hclear
    rw [press_clear]
    exact ⟨Display.lettered_blank, by simp [Log.Event.Lettered]⟩
  by_cases hequals : c = '='
  · subst hequals
    refine ⟨by rw [result_press_equals]; exact h, ?_⟩
    rintro event hevent expression fault rfl
    rw [press_equals] at hevent
    have hmem : .rejected expression fault ∈ (Log.evaluate d.input).events := by
      simpa using hevent
    have hstray : (Scan.ofString d.input).stray? = none :=
      Scan.stray?_ofChars (fun c hc => .inr (h c hc)) 0
    exact kind_ne_invalidCharacter (Log.rejected_mem_events_evaluate hmem) hstray
  · have hpart : c ∈ Token.alphabet := by
      rcases mem_labels_iff.mp hc with hpart | rfl | rfl
      · exact hpart
      · exact absurd rfl hclear
      · exact absurd rfl hequals
    rw [press_of_ne (String.singleton_inj.not.mpr hclear) (String.singleton_inj.not.mpr hequals)]
    refine ⟨?_, by simp [Log.Event.Lettered]⟩
    intro e he
    rw [String.toList_append, List.mem_append] at he
    rcases he with he | he
    · exact h e he
    · obtain rfl : e = c := by simpa using he
      exact hpart

/-- What holds of every press on the way holds of all keys together. -/
theorem safe_pressChars {P : Display → Prop} {Q : Log.Event → Prop} {cs : List Char}
    (hpress : ∀ display, P display → ∀ c ∈ cs, Text.isBlank c = false →
      P (press (String.singleton c) display.input).result ∧
        ∀ event ∈ (press (String.singleton c) display.input).events, Q event)
    {display : Display} (hP : P display) :
    P (pressChars display cs).result ∧ ∀ event ∈ (pressChars display cs).events, Q event := by
  induction cs generalizing display with
  | nil => exact ⟨hP, fun _ h => nomatch h⟩
  | cons c rest ih =>
    have hlater := fun display hP d hd => hpress display hP d (List.mem_cons_of_mem c hd)
    simp only [pressChars]
    split
    · exact ih hlater hP
    · next hblank =>
      obtain ⟨hnext, hevents⟩ := hpress display hP c (by simp) (Bool.not_eq_true _ ▸ hblank)
      obtain ⟨hfinal, hrest⟩ := ih hlater hnext
      exact ⟨hfinal, List.forall_mem_append.mpr ⟨hevents, hrest⟩⟩

end Keypad

/-- The step presses nothing but keys of the keypad. -/
def Step.OnKeypad : Step → Prop
  | .press label => ∃ c ∈ Keypad.labels, label = String.singleton c
  | .keys pressed => ∀ c ∈ pressed.toList, Keypad.isKey c = true
  | .set _ | .evaluate _ | .configure _ => True

namespace Session

theorem coherent_respond {display : Display} (h : display.Coherent) {step : Step}
    (hset : ∀ other, step ≠ .set other) : (respond display step).result.Coherent := by
  cases step with
  | press label => exact Keypad.coherent_press label display.input
  | keys keys =>
    exact (Keypad.safe_pressChars (Q := fun _ => True)
      (fun display _ c _ _ => ⟨Keypad.coherent_press _ display.input, fun _ _ => trivial⟩) h).1
  | set other => exact absurd rfl (hset other)
  | evaluate expression => exact h
  | configure level => exact h

theorem lettered_respond {display : Display} (h : display.Lettered) {step : Step}
    (hset : ∀ other, step ≠ .set other) (hkeypad : step.OnKeypad) :
    (respond display step).result.Lettered ∧
      ((∀ expression, step ≠ .evaluate expression) →
        ∀ event ∈ (respond display step).events, event.Lettered) := by
  cases step with
  | press label =>
    obtain ⟨c, hc, rfl⟩ := hkeypad
    obtain ⟨hresult, hevents⟩ := Keypad.lettered_press hc h
    exact ⟨hresult, fun _ => hevents⟩
  | keys keys =>
    have hpress : ∀ display : Display, display.Lettered → ∀ c ∈ keys.toList,
        Text.isBlank c = false → (Keypad.press (String.singleton c) display.input).result.Lettered ∧
          ∀ event ∈ (Keypad.press (String.singleton c) display.input).events, event.Lettered := by
      intro display hdisplay c hc hblank
      have hlabel : c ∈ Keypad.labels := by simpa [Keypad.isKey, hblank] using hkeypad c hc
      exact Keypad.lettered_press hlabel hdisplay
    obtain ⟨hresult, hevents⟩ := Keypad.safe_pressChars hpress h
    exact ⟨hresult, fun _ => hevents⟩
  | set other => exact absurd rfl (hset other)
  | evaluate expression => exact ⟨h, fun hne => absurd rfl (hne expression)⟩
  | configure level => exact ⟨h, fun _ _ hevent => nomatch hevent⟩

/-- In a session whose display is never set from outside, a result is at every time that of the
input, and asking for it again changes nothing. If only keys of the keypad are pressed, the input
holds parts of tokens alone and no press meets a stray character. -/
theorem coherent_of_never_set {steps : List Step} (hset : ∀ display, Step.set display ∉ steps) :
    (∀ entry ∈ ({} : Session).trace steps, entry.1.display.Coherent ∧
      (entry.1.display.result ≠ "" → (entry.1.step (.press "=")).1 = entry.1)) ∧
    ((∀ step ∈ steps, step.OnKeypad) →
      (∀ entry ∈ ({} : Session).trace steps, entry.1.display.Lettered) ∧
      ∀ visit ∈ ({} : Session).visits steps, (∀ expression, visit.2 ≠ .evaluate expression) →
        ∀ event ∈ (respond visit.1.display visit.2).events, event.Lettered) := by
  have hother : ∀ step ∈ steps, ∀ display, step ≠ .set display := by
    rintro step hmem display rfl
    exact hset display hmem
  refine ⟨?_, ?_⟩
  · intro entry hentry
    have hstep : ∀ display : Display, display.Coherent → ∀ step ∈ steps,
        (respond display step).result.Coherent :=
      fun display hdisplay step hmem => coherent_respond hdisplay (hother step hmem)
    have hcoherent := invariant_trace hstep (s := {}) (.inl rfl) entry hentry
    refine ⟨hcoherent, fun hne => ?_⟩
    have hdisplay := Keypad.press_equals_of_coherent hcoherent hne
    exact congrArg (fun display => (⟨display, entry.1.logger⟩ : Session)) hdisplay
  · intro hkeypad
    have hstep : ∀ display : Display, display.Lettered → ∀ step ∈ steps,
        (respond display step).result.Lettered := fun display hdisplay step hmem =>
      (lettered_respond hdisplay (hother step hmem) (hkeypad step hmem)).1
    refine ⟨invariant_trace hstep Display.lettered_blank, ?_⟩
    intro visit hvisit hevaluate
    obtain ⟨hlettered, hmem⟩ := invariant_visits hstep Display.lettered_blank visit hvisit
    exact (lettered_respond hlettered (hother _ hmem) (hkeypad _ hmem)).2 hevaluate

/-- A level that cannot be set, a division by zero, a further key, a stray letter in an expression
that is not the input, and the result. -/
theorem coherent_of_never_set_division :
    let steps := [.configure (.name "basic_format"), .keys "C7/ 0=", .press "1", .evaluate "x2",
      .press "="]
    (∀ display, Step.set display ∉ steps) ∧ (∀ step ∈ steps, step.OnKeypad) ∧
    (∀ entry ∈ ({} : Session).trace steps, entry.1.display.Coherent ∧ entry.1.display.Lettered) ∧
    (({} : Session).trace steps).map (fun entry => entry.1.display) =
      [⟨"", ""⟩, ⟨"7/0", "Error"⟩, ⟨"7/01", ""⟩, ⟨"7/01", ""⟩, ⟨"7/01", "7.0"⟩] := by
  intro steps
  have hset : ∀ display, Step.set display ∉ steps := by
    simp [steps]
  have hkeypad : ∀ step ∈ steps, step.OnKeypad := by
    intro step hstep
    simp only [steps, List.mem_cons, List.not_mem_nil, or_false] at hstep
    rcases hstep with rfl | rfl | rfl | rfl | rfl
    · trivial
    · have hall : "C7/ 0=".toList.all Keypad.isKey = true := by decide
      exact List.all_eq_true.mp hall
    · exact ⟨'1', by decide, rfl⟩
    · trivial
    · exact ⟨'=', by decide, rfl⟩
  obtain ⟨hcoherent, hlettered⟩ := coherent_of_never_set hset
  exact ⟨hset, hkeypad, fun entry hentry =>
    ⟨(hcoherent entry hentry).1, (hlettered hkeypad).1 entry hentry⟩, by decide +kernel⟩

end Session

end Reckoner

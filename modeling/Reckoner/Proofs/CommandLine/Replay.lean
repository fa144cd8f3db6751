import Reckoner.Proofs.CommandLine.Defects
import Reckoner.Proofs.CommandLine.Screen
import Reckoner.Proofs.CommandLine.Settings
import Reckoner.Proofs.Expression.Recognition

/-! Keys that stand alone on the command line. They are replayed if they can be told from an option,
which is not so for all keys that begin with a minus. -/
namespace Reckoner

theorem Keypad.isScriptDigit_of_isKey {c : Char} (h : isKey c = true) :
    Text.isScriptDigit c = Text.isDigit c := by
  cases hdigit : Text.isDigit c with
  | true => exact Text.isScriptDigit_of_isDigit hdigit
  | false =>
    cases hscript : Text.isScriptDigit c with
    | false => rfl
    | true =>
      have hblank := Text.isBlank_eq_false_of_isScriptDigit hscript
      have hlabel : c ∈ labels := by simpa [isKey, hblank] using h
      have hother := Token.not_mem_alphabet_of_isScriptDigit hscript hdigit
      obtain halphabet | rfl | rfl := mem_labels_iff.mp hlabel
      · exact absurd halphabet hother
      · exact absurd hscript (by decide)
      · exact absurd hscript (by decide)

namespace CommandLine

/-- A minus and digits, which may be followed by the end of the line. -/
def IsSignedNumber (cs : List Char) : Prop :=
  ∃ digits, digits ≠ [] ∧ (∀ d ∈ digits, Text.isDigit d = true) ∧
    (cs = '-' :: digits ∨ cs = '-' :: digits ++ ['\n'])

theorem isSignedNumber_iff {cs : List Char} :
    IsSignedNumber cs ↔ ∃ digits, digits ≠ [] ∧ (∀ d ∈ digits, Text.isDigit d = true) ∧
      (if cs.getLast? = some '\n' then cs.dropLast else cs) = '-' :: digits := by
  unfold IsSignedNumber
  refine exists_congr fun digits => and_congr_right fun _ => and_congr_right fun hdigits => ?_
  constructor
  · rintro (rfl | rfl)
    · have hlast : ('-' :: digits).getLast? ≠ some '\n' := by
        intro h
        rcases List.mem_cons.mp (List.mem_of_getLast? h) with hminus | hmem
        · exact absurd hminus (by decide)
        · exact absurd (hdigits _ hmem) (by decide)
      rw [if_neg hlast]
    · rw [List.getLast?_concat, if_pos rfl, List.dropLast_concat]
  · intro h
    split at h
    · next hlast =>
      rw [← h]
      exact .inr (List.dropLast_append_getLast? '\n' hlast).symm
    · exact .inl h

/-- Keys are told from an option by not beginning with a minus, by being nothing but a minus, by a
space, or by being a number with a sign; but not if they begin like any long option with a value. -/
def ReadsAsKeys (cs : List Char) : Prop :=
  cs.head? ≠ some '-' ∨ cs = ['-'] ∨
    ¬['-', '-', '='] <+: cs ∧ (' ' ∈ cs ∨ IsSignedNumber cs)

theorem not_readsAsKeys_separator : ¬ReadsAsKeys ['-', '-'] := by
  rintro (hhead | hminus | ⟨-, hspace | hnumber⟩)
  · exact hhead rfl
  · cases hminus
  · revert hspace
    decide
  · obtain ⟨digits, -, hdigits, heq⟩ := isSignedNumber_iff.mp hnumber
    obtain rfl : ['-'] = digits := (List.cons.inj heq).2
    exact absurd (hdigits '-' (by simp)) (by decide)

namespace Argument

/-- After two dashes every option goes on with a letter that is not on the keypad. -/
theorem not_isPrefixOf_spelling {c : Char} (hc : Keypad.isKey c = true) (rest : List Char)
    {entry : String × Flag} (hentry : entry ∈ Flag.spellings) :
    ('-' :: '-' :: c :: rest).isPrefixOf entry.1.toList = false := by
  have hall : ∀ entry ∈ Flag.spellings, entry.1.toList[2]?.all (!Keypad.isKey ·) = true := by
    decide
  refine Bool.eq_false_iff.mpr fun hbegins => ?_
  obtain ⟨tail, htail⟩ := List.isPrefixOf_iff_prefix.mp hbegins
  have hthird := hall entry hentry
  rw [← htail] at hthird
  simp [hc] at hthird

theorem filter_spellings_eq_nil {c : Char} (hc : Keypad.isKey c = true) (rest : List Char) :
    (Flag.spellings.filter fun s => ('-' :: '-' :: c :: rest).isPrefixOf s.1.toList) = [] := by
  refine List.filter_eq_nil_iff.mpr fun entry hentry => ?_
  rw [not_isPrefixOf_spelling hc rest hentry]
  decide

theorem abbreviated_of_two_dashes {c : Char} (hc : Keypad.isKey c = true) (hequals : c ≠ '=')
    (rest : List Char) : abbreviated ('-' :: '-' :: c :: rest) = [] := by
  unfold abbreviated
  rw [if_neg (by simp [hasOneDash])]
  -- With or without a value, what could abbreviate an option goes on with the same character.
  by_cases hrest : '=' ∈ rest
  · obtain ⟨before, value, rfl, hbefore⟩ := List.eq_append_cons_of_mem hrest
    have hspelling : '=' ∉ '-' :: '-' :: c :: before := by simp [hbefore, hequals.symm]
    have hsplit : splitValue? ('-' :: '-' :: c :: (before ++ '=' :: value)) =
        some ('-' :: '-' :: c :: before, value) := splitValue?_append hspelling value
    rw [hsplit]
    dsimp only
    rw [filter_spellings_eq_nil hc]
    rfl
  · have hsplit : splitValue? ('-' :: '-' :: c :: rest) = none :=
      splitValue?_eq_none (by simp [hrest, hequals.symm])
    rw [hsplit]
    dsimp only
    rw [filter_spellings_eq_nil hc]
    rfl

/-- An equals sign right after two dashes leaves all long options open. -/
theorem abbreviated_of_equals (rest : List Char) :
    abbreviated ('-' :: '-' :: '=' :: rest) =
      [("--help", .help, some (String.ofList rest)),
        ("--expression", .expression, some (String.ofList rest)),
        ("--log-level", .logLevel, some (String.ofList rest))] := by
  have hequals : '=' ∉ ['-', '-'] := by decide
  have hsplit : splitValue? ('-' :: '-' :: '=' :: rest) = some (['-', '-'], rest) :=
    splitValue?_append hequals rest
  unfold abbreviated
  rw [if_neg (by simp [hasOneDash]), hsplit]
  rfl

variable {cs : List Char} (h : ∀ c ∈ cs, Keypad.isKey c = true)

include h

/-- Every option is spelled with a letter that is not on the keypad. -/
theorem ofSpelling?_of_isKey : Flag.ofSpelling? (String.ofList cs) = none := by
  have hall : ∀ entry ∈ Flag.spellings, entry.1.toList.all Keypad.isKey = false := by decide
  rw [Flag.ofSpelling?_eq_none_iff]
  intro entry hentry heq
  have hkeys : entry.1.toList.all Keypad.isKey = true := by
    rw [← heq, String.toList_ofList, List.all_eq_true]
    exact h
  rw [hall entry hentry] at hkeys
  cases hkeys

theorem spelledOut?_of_isKey : spelledOut? cs = none := by
  unfold spelledOut?
  rw [ofSpelling?_of_isKey h]
  by_cases hequals : '=' ∈ cs
  · obtain ⟨spelling, value, rfl, hspelling⟩ := List.eq_append_cons_of_mem hequals
    have hnone := ofSpelling?_of_isKey fun c hc => h c (List.mem_append_left _ hc)
    rw [splitValue?_append hspelling]
    simp [hnone]
  · rw [splitValue?_eq_none hequals]
    rfl

theorem abbreviated_of_hasOneDash (hdash : hasOneDash cs = true) : abbreviated cs = [] := by
  have hnone := ofSpelling?_of_isKey fun c hc => h c (List.mem_of_mem_take (i := 2) hc)
  unfold abbreviated
  simp [hdash, hnone]

theorem isDigit_of_isScriptDigit {ds : List Char} (hds : ∀ d ∈ ds, d ∈ cs)
    (hscript : ds.all Text.isScriptDigit = true) : ∀ d ∈ ds, Text.isDigit d = true := by
  intro d hd
  rw [← Keypad.isScriptDigit_of_isKey (h d (hds d hd))]
  exact List.all_eq_true.mp hscript d hd

theorem isNegativeNumber_iff_of_isKey : isNegativeNumber cs = true ↔ IsSignedNumber cs := by
  rw [isSignedNumber_iff]
  unfold isNegativeNumber
  dsimp only
  have hsub : ∀ c ∈ (if cs.getLast? = some '\n' then cs.dropLast else cs), c ∈ cs := by
    intro c hc
    split at hc
    · exact (List.dropLast_sublist cs).subset hc
    · exact hc
  generalize (if cs.getLast? = some '\n' then cs.dropLast else cs) = body at hsub ⊢
  constructor
  · intro hnumber
    split at hnumber
    · next rest =>
      have hrest : ∀ c ∈ rest, c ∈ cs := fun c hc => hsub c (List.mem_cons_of_mem _ hc)
      rw [Bool.or_eq_true] at hnumber
      rcases hnumber with hdigits | hpoint
      · rw [Bool.and_eq_true, Bool.not_eq_true', List.isEmpty_eq_false_iff] at hdigits
        exact ⟨rest, hdigits.1, isDigit_of_isScriptDigit h hrest hdigits.2, rfl⟩
      · split at hpoint
        · next fraction hdrop =>
          -- There is no point on the keypad.
          have hmem : '.' ∈ rest := by
            refine (List.dropWhile_sublist Text.isScriptDigit).subset ?_
            rw [hdrop]
            exact List.mem_cons_self
          exact absurd (h '.' (hrest '.' hmem)) (by decide)
        · cases hpoint
    · cases hnumber
  · rintro ⟨digits, hne, hdigits, rfl⟩
    have hall : digits.all Text.isScriptDigit = true :=
      List.all_eq_true.mpr fun d hd => Text.isScriptDigit_of_isDigit (hdigits d hd)
    simp [hne, hall]

theorem abbreviated_eq_nil_of_isKey (hlength : cs.length ≠ 1) (hhead : cs.head? = some '-')
    (hdashes : cs ≠ ['-', '-']) (hbegins : ¬['-', '-', '='] <+: cs) : abbreviated cs = [] := by
  obtain _ | ⟨first, _ | ⟨second, rest⟩⟩ := cs
  · cases hhead
  · exact absurd rfl hlength
  obtain rfl : first = '-' := Option.some.inj hhead
  by_cases hsecond : second = '-'
  · subst hsecond
    obtain _ | ⟨third, rest⟩ := rest
    · exact absurd rfl hdashes
    have hequals : third ≠ '=' := by
      rintro rfl
      exact hbegins ⟨rest, rfl⟩
    exact abbreviated_of_two_dashes (h third (by simp)) hequals rest
  · refine abbreviated_of_hasOneDash h ?_
    simp [hasOneDash, hsecond]

end Argument

section

variable {s : String} (h : ∀ c ∈ s.toList, Keypad.isKey c = true)

include h

/-- Keys that begin with a minus and stand for no option. -/
theorem Argument.ofText_of_isKey (hlength : s.toList.length ≠ 1)
    (hhead : s.toList.head? = some '-') (hdashes : s.toList ≠ ['-', '-'])
    (hbegins : ¬['-', '-', '='] <+: s.toList) :
    ofText s = .ok (if isNegativeNumber s.toList || s.toList.contains ' ' then .plain s
      else .unknownOption s) := by
  have hoption : ¬(s.toList.head? ≠ some '-' ∨ s.toList.length = 1) := by simp [hhead, hlength]
  unfold ofText
  dsimp only
  rw [if_neg hoption, spelledOut?_of_isKey h,
    abbreviated_eq_nil_of_isKey h hlength hhead hdashes hbegins]

theorem Argument.ofText_of_readsAsKeys (hkeys : ReadsAsKeys s.toList) :
    ofText s = .ok (.plain s) := by
  by_cases hplain : s.toList.head? ≠ some '-' ∨ s.toList.length = 1
  · exact if_pos hplain
  · obtain ⟨hhead, hlength⟩ := not_or.mp hplain
    have hdashes : s.toList ≠ ['-', '-'] :=
      fun heq => not_readsAsKeys_separator (heq ▸ hkeys)
    obtain hother | hminus | ⟨hbegins, htold⟩ := hkeys
    · exact absurd hother hhead
    · simp [hminus] at hlength
    · have htest : (isNegativeNumber s.toList || s.toList.contains ' ') = true := by
        rw [Bool.or_eq_true, isNegativeNumber_iff_of_isKey h, List.contains_iff_mem]
        exact htold.symm
      rw [ofText_of_isKey h hlength (not_not.mp hhead) hdashes hbegins, if_pos htest]

theorem Argument.ofText_of_not_readsAsKeys (hdashes : s.toList ≠ ['-', '-'])
    (hoption : ¬ReadsAsKeys s.toList) :
    ofText s = .ok (.unknownOption s) ∨ ∃ e, ofText s = .error e := by
  obtain ⟨hhead, hrest⟩ := not_or.mp hoption
  obtain ⟨hminus, htold⟩ := not_or.mp hrest
  have hhead := not_not.mp hhead
  have hlength : s.toList.length ≠ 1 := by
    intro hone
    obtain ⟨c, hc⟩ := List.length_eq_one_iff.mp hone
    rw [hc] at hhead hminus
    exact hminus (congrArg (fun c => [c]) (Option.some.inj hhead))
  by_cases hbegins : ['-', '-', '='] <+: s.toList
  · obtain ⟨rest, hchars⟩ := hbegins
    have hlong : ¬(s.toList.head? ≠ some '-' ∨ s.toList.length = 1) := by simp [hhead, hlength]
    have habbreviated := abbreviated_of_equals rest
    have hsame : '-' :: '-' :: '=' :: rest = s.toList := hchars
    rw [hsame] at habbreviated
    refine .inr ⟨.ambiguous s ["--help", "--expression", "--log-level"], ?_⟩
    unfold ofText
    dsimp only
    rw [if_neg hlong, spelledOut?_of_isKey h, habbreviated]
    rfl
  · have htest : ¬(isNegativeNumber s.toList || s.toList.contains ' ') = true := by
      rw [Bool.or_eq_true, isNegativeNumber_iff_of_isKey h, List.contains_iff_mem]
      exact fun hyes => htold ⟨hbegins, hyes.symm⟩
    rw [ofText_of_isKey h hlength hhead hdashes hbegins, if_neg htest]
    exact .inl rfl

theorem Invocation.ofTexts_of_readsAsKeys (hkeys : ReadsAsKeys s.toList) :
    ofTexts [s] = .accepted ⟨some s, none, "WARNING"⟩ := by
  have hne : s ≠ "--" := by
    rintro rfl
    exact not_readsAsKeys_separator hkeys
  have hgathered : (Argument.ofTexts [s]).bind (gather {}) =
      .ok (some (.ofTexts (some s) none none)) := by
    rw [Argument.ofTexts, if_neg hne, Argument.ofText_of_readsAsKeys h hkeys]
    rfl
  have hlevel : Text.capitals "WARNING" = "WARNING" :=
    Arguments.capitals_of_mem_chosenNames (by decide)
  have hchecked : Arguments.check (some s) none "WARNING" = .ok ⟨some s, none, "WARNING"⟩ := by
    refine (Arguments.check_eq_ok_iff _ _ _).mpr ⟨⟨?_, by decide, by simp⟩, by rw [hlevel]⟩
    exact Arguments.unknownKeys_eq_nil_iff.mpr h
  exact (ofTexts_of_gathered hgathered).trans (congrArg ofChecked hchecked)

theorem Answer.ofTexts_of_not_readsAsKeys (hoption : ¬ReadsAsKeys s.toList) :
    ofInvocation (.ofTexts [s]) = ⟨2, "", []⟩ := by
  by_cases hdashes : s.toList = ['-', '-']
  · obtain rfl : s = "--" := String.toList_inj.mp hdashes
    decide +kernel
  · have hne : s ≠ "--" := by
      rintro rfl
      exact hdashes rfl
    have harguments : Argument.ofTexts [s] = (Argument.ofText s).map ([·]) := by
      rw [Argument.ofTexts, if_neg hne]
      cases Argument.ofText s <;> rfl
    unfold Invocation.ofTexts
    rw [harguments]
    obtain hunknown | ⟨e, he⟩ := Argument.ofText_of_not_readsAsKeys h hdashes hoption
    · rw [hunknown]
      rfl
    · rw [he]
      rfl

end

/-- Keys that stand alone are replayed exactly if they can be told from an option: then the screen
after the last of them is printed, and the code says whether it shows an error. All other keys are
taken for misuse. -/
theorem answer_of_keys_alone {keys : String}
    (h : ∀ c ∈ keys.toList, Text.isBlank c = true ∨ c ∈ Keypad.labels) :
    let answer := Answer.ofInvocation (.ofTexts [keys])
    (ReadsAsKeys keys.toList → ∃ a, Arguments.ofForm [("keys", .text keys)] = .ok a ∧
      answer.output = a.screen.result ++ "\n" ∧
      answer.exitCode = if a.screen.result = "Error" then 1 else 0) ∧
    (¬ReadsAsKeys keys.toList → answer.exitCode = 2 ∧ answer.output = "") := by
  intro answer
  have hkeys : ∀ c ∈ keys.toList, Keypad.isKey c = true := by
    intro c hc
    simpa [Keypad.isKey] using h c hc
  constructor
  · intro hread
    have hanswer : answer = Answer.ofArguments ⟨some keys, none, "WARNING"⟩ :=
      congrArg Answer.ofInvocation (Invocation.ofTexts_of_readsAsKeys hkeys hread)
    rw [hanswer]
    exact ⟨_, Arguments.ofForm_keys hkeys, rfl, rfl⟩
  · intro hoption
    have hanswer : answer = ⟨2, "", []⟩ := Answer.ofTexts_of_not_readsAsKeys hkeys hoption
    rw [hanswer]
    exact ⟨rfl, rfl⟩

/-- Here a space tells the keys from an option. -/
theorem answer_of_keys_alone_spaced :
    (∀ c ∈ "-C 8-3=".toList, Text.isBlank c = true ∨ c ∈ Keypad.labels) ∧
      ReadsAsKeys "-C 8-3=".toList ∧
      (Answer.ofInvocation (.ofTexts ["-C 8-3="])).output = "5.0\n" ∧
      (Answer.ofInvocation (.ofTexts ["-C 8-3="])).exitCode = 0 := by
  have hall : "-C 8-3=".toList.all Keypad.isKey = true := by decide
  have hkeys : ∀ c ∈ "-C 8-3=".toList, Text.isBlank c = true ∨ c ∈ Keypad.labels := by
    intro c hc
    simpa [Keypad.isKey] using List.all_eq_true.mp hall c hc
  have hread : ReadsAsKeys "-C 8-3=".toList := .inr (.inr ⟨by decide, .inl (by decide)⟩)
  obtain ⟨a, hform, houtput, hcode⟩ := (answer_of_keys_alone hkeys).1 hread
  obtain rfl : ⟨some "-C 8-3=", none, "WARNING"⟩ = a :=
    Except.ok.inj ((Arguments.ofForm_keys (List.all_eq_true.mp hall)).symm.trans hform)
  have hscreen : (⟨some "-C 8-3=", none, "WARNING"⟩ : Arguments).screen.result = "5.0" := by
    decide +kernel
  rw [hscreen] at houtput hcode
  rw [if_neg (by decide)] at hcode
  exact ⟨hkeys, hread, houtput, hcode⟩

/-- Without the space the same keys are refused, although they are all on the keypad and show a
result when they are pressed. -/
theorem answer_of_keys_alone_misused :
    "-C8-3=".toList.all Keypad.isKey = true ∧ ¬ReadsAsKeys "-C8-3=".toList ∧
      (∃ a, Arguments.ofForm [("keys", .text "-C8-3=")] = .ok a ∧ a.screen.result = "5.0") ∧
      Answer.ofInvocation (.ofTexts ["-C8-3="]) = ⟨2, "", []⟩ := by
  have hall : "-C8-3=".toList.all Keypad.isKey = true := by decide
  have hkeys := List.all_eq_true.mp hall
  have hanswer : Answer.ofInvocation (.ofTexts ["-C8-3="]) = ⟨2, "", []⟩ := by decide +kernel
  refine ⟨hall, ?_, ⟨_, Arguments.ofForm_keys hkeys, by decide +kernel⟩, hanswer⟩
  intro hread
  have haccepted := Invocation.ofTexts_of_readsAsKeys hkeys hread
  rw [haccepted] at hanswer
  revert hanswer
  decide +kernel

end CommandLine

end Reckoner

import Reckoner.Proofs.Expression.FirstFault

/-! Which texts are made of tokens, and of which ones. A text of blanks and of characters that
tokens are made of is a way to write exactly one list of tokens; in any other text the scan comes
to a stop at the first character that is neither. -/
namespace Reckoner

namespace Text

theorem exists_first_stray {cs : List Char} (h : ¬Legal cs) :
    ∃ before c after, cs = before ++ c :: after ∧ Legal before ∧ isBlank c = false ∧
      c ∉ Token.alphabet := by
  induction cs with
  | nil => exact absurd nofun h
  | cons c rest ih =>
    by_cases hc : isBlank c = true ∨ c ∈ Token.alphabet
    · have hrest : ¬Legal rest := fun hlegal => h (List.forall_mem_cons.mpr ⟨hc, hlegal⟩)
      obtain ⟨before, d, after, rfl, hbefore, hd⟩ := ih hrest
      exact ⟨c :: before, d, after, rfl, List.forall_mem_cons.mpr ⟨hc, hbefore⟩, hd⟩
    · obtain ⟨hblank, halphabet⟩ := not_or.mp hc
      exact ⟨[], c, rest, rfl, nofun, Bool.eq_false_iff.mpr hblank, halphabet⟩

/-- The digits of the other scripts lie beyond ASCII and between the blanks. -/
theorem scriptDigits_apart : scriptDigitRanges.all (fun range =>
    0x660 ≤ range.1 && (range.2 < 0x1680 || (0x1680 < range.1 && range.2 < 0x2000) ||
      0x3000 < range.1)) = true := by
  decide

theorem isBlank_eq_false_of_isScriptDigit {c : Char} (h : isScriptDigit c = true) :
    isBlank c = false := by
  rw [isScriptDigit, Bool.or_eq_true] at h
  rcases h with h | h
  · exact isBlank_eq_false_of_isDigit h
  · obtain ⟨range, hmem, hlow, hhigh⟩ := inRanges_iff.mp h
    have hapart := List.all_eq_true.mp scriptDigits_apart range hmem
    simp only [Bool.and_eq_true, Bool.or_eq_true, decide_eq_true_eq] at hapart
    simp only [isBlank, Bool.or_eq_false_iff, Bool.and_eq_false_iff, decide_eq_false_iff_not,
      beq_eq_false_iff_ne]
    omega

end Text

namespace Token

theorem toNat_lt_of_mem_alphabet {c : Char} (h : c ∈ alphabet) : c.toNat < 0x80 := by
  have hall : alphabet.all (fun d => decide (d.toNat < 0x80)) = true := by decide
  exact of_decide_eq_true (List.all_eq_true.mp hall c h)

theorem not_mem_alphabet_of_isScriptDigit {c : Char} (h : Text.isScriptDigit c = true)
    (hd : Text.isDigit c = false) : c ∉ alphabet := by
  rw [Text.isScriptDigit, hd, Bool.false_or] at h
  obtain ⟨range, hmem, hlow, -⟩ := Text.inRanges_iff.mp h
  have hapart := List.all_eq_true.mp Text.scriptDigits_apart range hmem
  intro hc
  have hascii := toNat_lt_of_mem_alphabet hc
  simp only [Bool.and_eq_true, decide_eq_true_eq] at hapart
  omega

/-- The text is a way to write the tokens: with any blanks before, between and after them, but at
least one between neighbouring literals. -/
def SpelledAs (ts : List Token) (cs : List Char) : Prop :=
  ∃ gap, Separated gap ts ∧ spell gap ts = cs

namespace SpelledAs

variable {ts : List Token} {cs : List Char}

theorem nil : SpelledAs [] [] := by
  refine ⟨fun _ => ⟨[], nofun⟩, ?_, rfl⟩
  intro i ds es hd
  cases hd

theorem blank {b : Char} (h : SpelledAs ts cs) (hb : Text.isBlank b = true) :
    SpelledAs ts (b :: cs) := by
  obtain ⟨gap, hs, rfl⟩ := h
  have hfirst : ∀ c ∈ b :: (gap 0).chars, Text.isBlank c = true :=
    List.forall_mem_cons.mpr ⟨hb, (gap 0).blank⟩
  refine ⟨fun | 0 => ⟨_, hfirst⟩ | i + 1 => gap (i + 1), ?_, ?_⟩
  · intro i ds es hd he
    exact hs i ds es hd he
  · cases ts <;> rfl

theorem cons {t : Token} (h : SpelledAs ts cs) (hp : ∀ u ∈ ts, u.Proper)
    (hnext : ∀ ds, t = number ds → cs.head?.any Text.isDigit = false) :
    SpelledAs (t :: ts) (t.chars ++ cs) := by
  obtain ⟨gap, hs, rfl⟩ := h
  refine ⟨fun | 0 => ⟨[], nofun⟩ | i + 1 => gap i, ?_, rfl⟩
  intro i ds es hd he
  cases i with
  | succ i => exact hs i ds es hd he
  | zero =>
    -- Without a blank the digits of the second literal would stand right behind the first one.
    intro hgap
    have hhead := hnext ds (Option.some.inj hd)
    cases ts with
    | nil => cases he
    | cons u rest =>
      obtain rfl : u = number es := Option.some.inj he
      obtain ⟨hne, hdigits⟩ := hp (number es) List.mem_cons_self
      obtain ⟨e, es, rfl⟩ := List.exists_cons_of_ne_nil hne
      have he : Text.isDigit e = true := hdigits e List.mem_cons_self
      change (gap 0).chars = [] at hgap
      simp [spell, hgap, chars, he] at hhead

theorem digit {c : Char} {ds : List Char} (h : SpelledAs (number ds :: ts) cs)
    (hcs : cs.head?.any Text.isDigit = true) : SpelledAs (number (c :: ds) :: ts) (c :: cs) := by
  obtain ⟨gap, hs, rfl⟩ := h
  have hgap : (gap 0).chars = [] := by
    cases hg : (gap 0).chars with
    | nil => rfl
    | cons b bs =>
      have hb : Text.isBlank b = true := (gap 0).blank b (by simp [hg])
      simp [spell, hg, Text.isDigit_eq_false_of_isBlank hb] at hcs
  refine ⟨gap, ?_, by simp [spell, hgap, chars]⟩
  intro i ds' es hd he
  cases i with
  | zero => exact hs 0 ds es rfl he
  | succ i => exact hs (i + 1) ds' es hd he

/-- No character is lost but the blanks, and none is made up. -/
theorem flatMap_chars (h : SpelledAs ts cs) (hp : ∀ t ∈ ts, t.Proper) :
    ts.flatMap chars = cs.filter fun c => !Text.isBlank c := by
  obtain ⟨gap, -, rfl⟩ := h
  have hgap (g : Gap) : g.chars.filter (fun c => !Text.isBlank c) = [] :=
    List.filter_eq_nil_iff.mpr fun c hc => by simp [g.blank c hc]
  induction ts generalizing gap with
  | nil => exact (hgap _).symm
  | cons t rest ih =>
    have ht : t.chars.filter (fun c => !Text.isBlank c) = t.chars := by
      refine List.filter_eq_self.mpr fun c hc => ?_
      cases t with
      | number ds => simp [Text.isBlank_eq_false_of_isDigit ((hp _ List.mem_cons_self).2 c hc)]
      | operator op => cases op <;> cases List.mem_singleton.mp hc <;> rfl
      | opening => cases List.mem_singleton.mp hc; rfl
      | closing => cases List.mem_singleton.mp hc; rfl
    have hrest := ih (fun u hu => hp u (List.mem_cons_of_mem t hu)) (fun i => gap (i + 1))
    rw [List.flatMap_cons, spell, List.filter_append, List.filter_append, hgap, ht, hrest,
      List.nil_append]

end SpelledAs

end Token

namespace Scan

/-- The scan of a text without stray characters has found what the text spells. -/
theorem spelledAs_of_stray?_eq_none {position : Nat} {cs : List Char}
    (h : (ofChars position cs).stray? = none) :
    Token.SpelledAs (ofChars position cs).tokens cs := by
  induction cs generalizing position with
  | nil => exact .nil
  | cons c rest ih =>
    by_cases hblank : Text.isBlank c = true
    · rw [ofChars_blank hblank] at h ⊢
      exact (ih h).blank hblank
    by_cases hdigit : Text.isDigit c = true
    · have hscan : ofChars position (c :: rest) =
          (ofChars (position + 1) rest).consDigit c (rest.head?.any Text.isDigit) := by
        rw [ofChars, if_neg hblank, if_pos hdigit]
      rw [hscan, stray?_consDigit] at h
      rw [hscan]
      have hrest := ih h
      cases hnext : rest.head?.any Text.isDigit with
      | false =>
        rw [consDigit_false]
        exact hrest.cons (proper_ofChars _ rest) fun _ _ => hnext
      | true =>
        obtain ⟨d, hd, hd'⟩ := (Option.any_eq_true _ _).mp hnext
        obtain ⟨rest, rfl⟩ := List.head?_eq_some_iff.mp hd
        obtain ⟨digits, s, hs⟩ := exists_cons_of_isDigit hd' (position + 1) rest
        rw [hs] at hrest ⊢
        exact hrest.digit hnext
    · cases ht : Token.ofSign? c with
      | none => simp [ofChars, hblank, hdigit, ht] at h
      | some t =>
        have hscan : ofChars position (c :: rest) = (ofChars (position + 1) rest).cons t := by
          rw [ofChars, if_neg hblank, if_neg hdigit, ht]
        rw [hscan] at h ⊢
        have hnumber (ds : List Char) : t ≠ .number ds := by
          rintro rfl
          have hproper := Token.chars_of_ofSign? ht
          have hds := (Token.proper_of_ofSign? ht).2
          rw [Token.chars] at hproper
          subst hproper
          exact hdigit (hds c List.mem_cons_self)
        have hspelled := (ih h).cons (t := t) (proper_ofChars _ rest)
          fun ds hds => absurd hds (hnumber ds)
        rw [Token.chars_of_ofSign? ht] at hspelled
        exact hspelled

/-- The scan ends without a stray character exactly if the text is a way to write its tokens. -/
theorem ofChars_eq_iff {position : Nat} {cs : List Char} {ts : List Token} :
    ofChars position cs = ⟨ts, none⟩ ↔ (∀ t ∈ ts, t.Proper) ∧ Token.SpelledAs ts cs := by
  constructor
  · intro h
    have hstray : (ofChars position cs).stray? = none := by rw [h]
    have hproper := proper_ofChars position cs
    have hspelled := spelledAs_of_stray?_eq_none hstray
    rw [h] at hproper hspelled
    exact ⟨hproper, hspelled⟩
  · rintro ⟨hp, gap, hs, rfl⟩
    exact ofChars_spell hp hs position

theorem ofChars_first_stray {before : List Char} {c : Char} (hbefore : Text.Legal before)
    (hblank : Text.isBlank c = false) (hc : c ∉ Token.alphabet) (position : Nat)
    (after : List Char) :
    ofChars position (before ++ c :: after) =
      ⟨(ofChars position before).tokens, some (c, position + before.length)⟩ := by
  have hseam := Text.digitsMeet_cons (Token.isDigit_eq_false hc) before after
  rw [ofChars_append hseam, ofChars_stray hblank hc, append, stray?_ofChars hbefore,
    List.append_nil]

theorem stray?_eq_none_iff {position : Nat} {cs : List Char} :
    (ofChars position cs).stray? = none ↔ Text.Legal cs := by
  refine ⟨fun h => ?_, fun h => stray?_ofChars h position⟩
  by_contra hlegal
  obtain ⟨before, c, after, rfl, hbefore, hblank, hc⟩ := Text.exists_first_stray hlegal
  rw [ofChars_first_stray hbefore hblank hc] at h
  cases h

end Scan

/-- The scan yields the tokens that a text spells, which are those and no others, and ends without
a stray character for these texts only. In any other text it yields the tokens before the first
character that is neither a blank nor part of a token, as are the digits of the other scripts. -/
theorem scan_recognises (text : String) :
    (∀ ts, Scan.ofString text = ⟨ts, none⟩ ↔
      (∀ t ∈ ts, t.Proper) ∧ Token.SpelledAs ts text.toList) ∧
    (∀ ts, Scan.ofString text = ⟨ts, none⟩ →
      ts.flatMap Token.chars = text.toList.filter fun c => !Text.isBlank c) ∧
    ((¬∃ ts, (∀ t ∈ ts, t.Proper) ∧ Token.SpelledAs ts text.toList) →
      ∃ before c after ts, text = before ++ String.singleton c ++ after ∧
        Text.Legal before.toList ∧ Text.isBlank c = false ∧ c ∉ Token.alphabet ∧
        Scan.ofString before = ⟨ts, none⟩ ∧
        Scan.ofString text = ⟨ts, some (c, before.length)⟩ ∧
        let error := (Fault.strayCharacter c before.length).error text
        error.kind = .invalidCharacter ∧ error.position = some (before.length : Int) ∧
        error.detail = "Unexpected character " ++ Text.quote (String.singleton c) ++
          " at position " ++ String.ofList (Number.toDigits before.length)) ∧
    ∀ c, Text.isScriptDigit c = true → Text.isDigit c = false →
      Text.isBlank c = false ∧ c ∉ Token.alphabet := by
  refine ⟨fun ts => Scan.ofChars_eq_iff, ?_, ?_, ?_⟩
  · intro ts h
    obtain ⟨hp, hspelled⟩ := Scan.ofChars_eq_iff.mp h
    exact hspelled.flatMap_chars hp
  · intro hnone
    have hlegal : ¬Text.Legal text.toList := by
      intro hlegal
      have hstray : (Scan.ofString text).stray? = none := Scan.stray?_eq_none_iff.mpr hlegal
      exact hnone ⟨_, Scan.proper_ofChars 0 text.toList, Scan.spelledAs_of_stray?_eq_none hstray⟩
    obtain ⟨before, c, after, hchars, hbefore, hblank, hc⟩ := Text.exists_first_stray hlegal
    have htext : text = String.ofList before ++ String.singleton c ++ String.ofList after := by
      apply String.toList_injective
      simp [hchars]
    have hscan : Scan.ofString text =
        ⟨(Scan.ofChars 0 before).tokens, some (c, before.length)⟩ := by
      rw [Scan.ofString, hchars, Scan.ofChars_first_stray hbefore hblank hc, Nat.zero_add]
    have hprefix : Scan.ofChars 0 before = ⟨(Scan.ofChars 0 before).tokens, none⟩ := by
      rw [Scan.mk.injEq]
      exact ⟨rfl, Scan.stray?_ofChars hbefore 0⟩
    refine ⟨String.ofList before, c, String.ofList after, (Scan.ofChars 0 before).tokens, htext,
      ?_, hblank, hc, ?_, ?_, rfl, rfl, rfl⟩
    · rwa [String.toList_ofList]
    · rwa [Scan.ofString, String.toList_ofList]
    · rwa [String.length_ofList]
  · intro c hscript hdigit
    exact ⟨Text.isBlank_eq_false_of_isScriptDigit hscript,
      Token.not_mem_alphabet_of_isScriptDigit hscript hdigit⟩

/-- Two literals with a tab between them, and a text that breaks off at a digit of another
script. -/
theorem scan_recognises_script_digit :
    Token.SpelledAs [.number ['7'], .number ['1', '2'], .closing] " 7\t12)".toList ∧
      ∃ before c after ts, "2+٣ 1" = before ++ String.singleton c ++ after ∧
        Scan.ofString before = ⟨ts, none⟩ ∧
        Scan.ofString "2+٣ 1" = ⟨ts, some (c, before.length)⟩ := by
  constructor
  · have hscan : Scan.ofString " 7\t12)" =
        ⟨[.number ['7'], .number ['1', '2'], .closing], none⟩ := rfl
    exact (((scan_recognises " 7\t12)").1 _).mp hscan).2
  · obtain ⟨hspelled, -, hstray, -⟩ := scan_recognises "2+٣ 1"
    have hscan : Scan.ofString "2+٣ 1" = ⟨[.number ['2'], .operator .add], some ('٣', 2)⟩ := rfl
    have hnone : ¬∃ ts, (∀ t ∈ ts, t.Proper) ∧ Token.SpelledAs ts "2+٣ 1".toList := by
      rintro ⟨ts, hts⟩
      have htokens := (hspelled ts).mpr hts
      rw [hscan] at htokens
      cases htokens
    obtain ⟨before, c, after, ts, htext, -, -, -, hbefore, hwhole, -⟩ := hstray hnone
    exact ⟨before, c, after, ts, htext, hbefore, hwhole⟩

end Reckoner

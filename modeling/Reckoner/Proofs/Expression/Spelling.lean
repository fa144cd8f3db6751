import Reckoner.Expression.Token

/-! Token lists written out with blanks before, between and after the tokens. The scan finds the
tokens again as long as neighbouring literals have a blank between them. -/
namespace Reckoner

/-- A run of blanks, perhaps an empty one. -/
structure Gap where
  chars : List Char
  blank : ∀ c ∈ chars, Text.isBlank c = true

namespace Token

/-- A literal has at least one digit and nothing else. -/
def Proper : Token → Prop
  | number digits => digits ≠ [] ∧ ∀ c ∈ digits, Text.isDigit c = true
  | _ => True

theorem proper_of_ofSign? {c : Char} {t : Token} (h : ofSign? c = some t) : t.Proper := by
  simp only [ofSign?] at h
  split at h
  · cases h; trivial
  split at h
  · cases h; trivial
  · obtain ⟨op, -, rfl⟩ := Option.map_eq_some_iff.mp h
    trivial

/-- The text of tokens with `gap i` before the token at `i` and one more gap at the end. -/
def spell (gap : Nat → Gap) : List Token → List Char
  | [] => (gap 0).chars
  | t :: rest => (gap 0).chars ++ (t.chars ++ spell (fun i => gap (i + 1)) rest)

/-- There is a blank between any two literals that are neighbours. -/
def Separated (gap : Nat → Gap) (ts : List Token) : Prop :=
  ∀ i ds es, ts[i]? = some (number ds) → ts[i + 1]? = some (number es) → (gap (i + 1)).chars ≠ []

theorem Separated.tail {gap : Nat → Gap} {t : Token} {ts : List Token}
    (h : Separated gap (t :: ts)) : Separated (fun i => gap (i + 1)) ts :=
  fun i ds es hd he => h (i + 1) ds es (by simpa using hd) (by simpa using he)

end Token

namespace Text

theorem isDigit_eq_false_of_isBlank {c : Char} (h : isBlank c = true) : isDigit c = false := by
  simp only [isBlank, isDigit, Bool.or_eq_true, Bool.and_eq_true, decide_eq_true_eq,
    beq_iff_eq] at *
  simp only [Bool.and_eq_false_iff, decide_eq_false_iff_not]
  omega

theorem isBlank_eq_false_of_isDigit {c : Char} (h : isDigit c = true) : isBlank c = false := by
  refine Bool.eq_false_iff.mpr fun hb => ?_
  rw [isDigit_eq_false_of_isBlank hb] at h
  exact Bool.false_ne_true h

end Text

namespace Scan

theorem ofChars_blanks {bs : List Char} (hb : ∀ c ∈ bs, Text.isBlank c = true) (position : Nat)
    (cs : List Char) : ofChars position (bs ++ cs) = ofChars (position + bs.length) cs := by
  induction bs generalizing position with
  | nil => rfl
  | cons b bs ih =>
    rw [List.cons_append, ofChars_blank (hb b (by simp)), ih (fun c hc => hb c (by simp [hc]))]
    congr 1
    simp only [List.length_cons]
    omega

@[simp] theorem consDigit_false (c : Char) (s : Scan) :
    s.consDigit c false = s.cons (.number [c]) := by
  obtain ⟨_ | ⟨_ | _ | _ | _, _⟩, _⟩ := s <;> rfl

@[simp] theorem consDigit_true_cons (c : Char) (digits : List Char) (s : Scan) :
    (s.cons (.number digits)).consDigit c true = s.cons (.number (c :: digits)) := rfl

theorem ofChars_digits {ds : List Char} (hne : ds ≠ [])
    (hd : ∀ c ∈ ds, Text.isDigit c = true) (position : Nat) {cs : List Char}
    (hcs : cs.head?.any Text.isDigit = false) :
    ofChars position (ds ++ cs) = (ofChars (position + ds.length) cs).cons (.number ds) := by
  -- The induction is on the run; the character after it decides whether a digit joins the next.
  induction ds generalizing position with
  | nil => exact absurd rfl hne
  | cons d ds ih =>
    have hdig : Text.isDigit d = true := hd d (by simp)
    have hblank : ¬ Text.isBlank d = true :=
      Bool.eq_false_iff.mp (Text.isBlank_eq_false_of_isDigit hdig)
    rw [List.cons_append, ofChars, if_neg hblank, if_pos hdig]
    cases ds with
    | nil => rw [List.nil_append, hcs, consDigit_false]; rfl
    | cons e es =>
      have he : Text.isDigit e = true := hd e (by simp)
      rw [ih (by simp) (fun c hc => hd c (List.mem_cons_of_mem d hc))]
      have hnext : (e :: es ++ cs).head?.any Text.isDigit = true := by simpa using he
      rw [hnext, consDigit_true_cons]
      congr 2
      simp only [List.length_cons]
      omega

theorem ofChars_sign {t : Token} (ht : ∀ ds, t ≠ .number ds) (position : Nat) (cs : List Char) :
    ofChars position (t.chars ++ cs) = (ofChars (position + 1) cs).cons t := by
  cases t with
  | number ds => exact absurd rfl (ht ds)
  | operator op => cases op <;> rfl
  | opening => rfl
  | closing => rfl

theorem proper_consDigit {c : Char} (hc : Text.isDigit c = true) (adjacent : Bool) {s : Scan}
    (hs : ∀ t ∈ s.tokens, t.Proper) : ∀ t ∈ (s.consDigit c adjacent).tokens, t.Proper := by
  have hone : (Token.number [c]).Proper := ⟨by simp, by simpa using hc⟩
  obtain ⟨ts, stray?⟩ := s
  unfold consDigit
  split
  · next digits rest _ heq =>
    obtain ⟨rfl, -⟩ := heq
    have hrest : ∀ t ∈ rest, t.Proper := fun t ht => hs t (List.mem_cons_of_mem _ ht)
    have hdigits : (Token.number digits).Proper := hs _ List.mem_cons_self
    have hjoined : (Token.number (c :: digits)).Proper := by
      refine ⟨by simp, fun d hd => ?_⟩
      rcases List.mem_cons.mp hd with rfl | hd
      · exact hc
      · exact hdigits.2 d hd
    split <;> simp only [List.forall_mem_cons]
    · exact ⟨hjoined, hrest⟩
    · exact ⟨hone, hdigits, hrest⟩
  · simpa [cons] using ⟨hone, hs⟩

theorem proper_ofChars (position : Nat) (cs : List Char) :
    ∀ t ∈ (ofChars position cs).tokens, t.Proper := by
  induction cs generalizing position with
  | nil => simp [ofChars]
  | cons c rest ih =>
    simp only [ofChars]
    split
    · exact ih _
    split
    · next hc => exact proper_consDigit hc _ (ih _)
    split
    · next t ht =>
      simp only [cons, List.forall_mem_cons]
      exact ⟨Token.proper_of_ofSign? ht, ih _⟩
    · simp

end Scan

open Token in
theorem Token.Separated.head_spell {gap : Nat → Gap} {ds : List Char} {ts : List Token}
    (h : Separated gap (number ds :: ts)) :
    (spell (fun i => gap (i + 1)) ts).head?.any Text.isDigit = false := by
  have hblank := (gap 1).blank
  cases hg : (gap 1).chars with
  | cons b bs =>
    rw [hg] at hblank
    have hb := Text.isDigit_eq_false_of_isBlank (hblank b (by simp))
    cases ts <;> simp [spell, hg, hb]
  | nil =>
    cases ts with
    | nil => simp [spell, hg]
    | cons t ts =>
      cases t with
      | number es => exact absurd hg (h 0 ds es rfl rfl)
      | operator op => cases op <;> simp [spell, hg, chars, Operator.symbol] <;> decide
      | opening => simp [spell, hg, chars]; decide
      | closing => simp [spell, hg, chars]; decide

/-- The scan of a text finds the tokens that it spells. -/
theorem Scan.ofChars_spell {gap : Nat → Gap} {ts : List Token} (hp : ∀ t ∈ ts, t.Proper)
    (hs : Token.Separated gap ts) (position : Nat) :
    ofChars position (Token.spell gap ts) = ⟨ts, none⟩ := by
  induction ts generalizing gap position with
  | nil => simpa [ofChars, Token.spell] using ofChars_blanks (gap 0).blank position []
  | cons t ts ih =>
    rw [Token.spell, ofChars_blanks (gap 0).blank]
    have hrest := ih (fun u hu => hp u (by simp [hu])) hs.tail
    by_cases hn : ∃ ds, t = .number ds
    · obtain ⟨ds, rfl⟩ := hn
      obtain ⟨hne, hd⟩ := hp (.number ds) (by simp)
      rw [Token.chars, ofChars_digits hne hd _ hs.head_spell, hrest]
      rfl
    · rw [ofChars_sign (fun ds h => hn ⟨ds, h⟩), hrest]
      rfl

end Reckoner

import Reckoner.Expression.Machine
import Reckoner.Keypad.Layout
import Reckoner.Proofs.Expression.Spelling

/-! The characters that expressions are made of, and the blanks between them. A stray character is
reported only for a text that holds another one, and blanks matter only where they part two digits.
-/
namespace Reckoner

namespace Text

/-- Somewhere blanks, and nothing else, stand between two digits. -/
def PartsDigits (cs : List Char) : Prop :=
  ∃ before c gap d after, cs = before ++ c :: (gap ++ d :: after) ∧ isDigit c = true ∧
    isDigit d = true ∧ gap ≠ [] ∧ ∀ b ∈ gap, isBlank b = true

theorem not_partsDigits_nil : ¬PartsDigits [] := by
  rintro ⟨before, c, gap, d, after, h, -⟩
  cases before <;> cases h

theorem partsDigits_cons {c : Char} {rest : List Char} :
    PartsDigits (c :: rest) ↔
      (isDigit c = true ∧ rest.head?.any isBlank = true ∧
        (rest.find? fun d => !isBlank d).any isDigit = true) ∨ PartsDigits rest := by
  constructor
  · rintro ⟨before, x, gap, d, after, h, hx, hd, hne, hgap⟩
    cases before with
    | nil =>
      obtain ⟨rfl, rfl⟩ := List.cons.inj h
      refine .inl ⟨hx, ?_, ?_⟩
      · cases gap with
        | nil => exact absurd rfl hne
        | cons b gap => simpa using hgap b (by simp)
      · have hfirst : (gap ++ d :: after).find? (fun e => !isBlank e) = some d :=
          List.find?_eq_some_iff_append.mpr
            ⟨by simp [isBlank_eq_false_of_isDigit hd], gap, after, rfl, by simpa using hgap⟩
        rw [hfirst]
        exact hd
    | cons y before =>
      obtain ⟨rfl, rfl⟩ := List.cons.inj h
      exact .inr ⟨before, x, gap, d, after, rfl, hx, hd, hne, hgap⟩
  · rintro (⟨hc, hhead, hfind⟩ | ⟨before, x, gap, d, after, rfl, hx, hd, hne, hgap⟩)
    · obtain ⟨d, hd, hdigit⟩ := (Option.any_eq_true _ _).mp hfind
      obtain ⟨hblank, gap, after, rfl, hgap⟩ := List.find?_eq_some_iff_append.mp hd
      refine ⟨[], c, gap, d, after, rfl, hc, hdigit, ?_, by simpa using hgap⟩
      rintro rfl
      simp only [List.nil_append, List.head?_cons, Option.any_some] at hhead
      simp [hhead] at hblank
    · exact ⟨c :: before, x, gap, d, after, rfl, hx, hd, hne, hgap⟩

instance decidablePartsDigits : (cs : List Char) → Decidable (PartsDigits cs)
  | [] => .isFalse not_partsDigits_nil
  | _ :: rest =>
    have := decidablePartsDigits rest
    decidable_of_iff' _ partsDigits_cons

end Text

namespace Token

/-- The characters that tokens are made of. -/
def alphabet : List Char := Text.digits ++ ['+', '-', '*', '/', '(', ')']

theorem isSome_ofSign? {c : Char} (h : c ∈ alphabet) (hd : Text.isDigit c = false) :
    (ofSign? c).isSome = true := by
  have hc : c ∈ ['+', '-', '*', '/', '(', ')'] := by
    refine (List.mem_append.mp h).resolve_left fun hmem => ?_
    rw [Text.mem_digits_iff.mp hmem] at hd
    exact Bool.false_ne_true hd.symm
  have hall : ['+', '-', '*', '/', '(', ')'].all (fun d => (ofSign? d).isSome) = true := by
    decide
  exact List.all_eq_true.mp hall c hc

end Token

/-- Nothing but blanks and characters that tokens are made of. -/
def Text.Legal (cs : List Char) : Prop := ∀ c ∈ cs, isBlank c = true ∨ c ∈ Token.alphabet

/-- The keypad has a key for every part of a token, one to start over and one to ask for the value. -/
theorem Keypad.mem_labels_iff {c : Char} :
    c ∈ labels ↔ c ∈ Token.alphabet ∨ c = clear ∨ c = equals := by
  have hperm : labels.Perm (Token.alphabet ++ [clear, equals]) := by decide
  rw [hperm.mem_iff]
  simp

namespace Scan

@[simp] theorem stray?_consDigit (c : Char) (adjacent : Bool) (s : Scan) :
    (s.consDigit c adjacent).stray? = s.stray? := by
  obtain ⟨_ | ⟨_ | _ | _ | _, _⟩, _⟩ := s <;> cases adjacent <;> rfl

theorem stray?_ofChars {cs : List Char} (h : Text.Legal cs) (position : Nat) :
    (ofChars position cs).stray? = none := by
  induction cs generalizing position with
  | nil => rfl
  | cons c rest ih =>
    obtain ⟨hc, hlegal⟩ := List.forall_mem_cons.mp h
    have hrest := ih hlegal
    simp only [ofChars]
    split
    · exact hrest _
    split
    · rw [stray?_consDigit]
      exact hrest _
    · next hblank hdigit =>
      have hc := hc.resolve_left hblank
      obtain ⟨t, ht⟩ := Option.isSome_iff_exists.mp
        (Token.isSome_ofSign? hc (Bool.not_eq_true _ ▸ hdigit))
      rw [ht]
      exact hrest _

/-- Without its blanks a text has the same tokens, unless they part two digits. -/
theorem tokens_ofChars_filter {cs : List Char} (h : ¬Text.PartsDigits cs) (p q : Nat) :
    (ofChars p (cs.filter fun c => !Text.isBlank c)).tokens = (ofChars q cs).tokens := by
  induction cs generalizing p q with
  | nil => rfl
  | cons c rest ih =>
    rw [Text.partsDigits_cons, not_or] at h
    obtain ⟨hhere, hlater⟩ := h
    by_cases hblank : Text.isBlank c = true
    · rw [List.filter_cons_of_neg (by simp [hblank]), ofChars_blank hblank]
      exact ih hlater p (q + 1)
    · rw [List.filter_cons_of_pos (by simp [hblank])]
      simp only [ofChars, if_neg hblank]
      have hrest := ih hlater (p + 1) (q + 1)
      by_cases hdigit : Text.isDigit c = true
      · -- The next digit still follows at once, and no other one has moved up to this one.
        have hnext : (rest.filter fun d => !Text.isBlank d).head?.any Text.isDigit =
            rest.head?.any Text.isDigit := by
          rw [List.head?_filter]
          cases rest with
          | nil => rfl
          | cons d rest =>
            cases hd : Text.isBlank d with
            | false => simp [hd]
            | true =>
              have hfar :
                  ((d :: rest).find? fun e => !Text.isBlank e).any Text.isDigit = false := by
                simpa [hdigit, hd] using hhere
              rw [hfar]
              exact (Text.isDigit_eq_false_of_isBlank hd).symm
        rw [if_pos hdigit, if_pos hdigit, hnext]
        exact tokens_consDigit_congr c _ hrest
      · rw [if_neg hdigit, if_neg hdigit]
        cases Token.ofSign? c with
        | none => rfl
        | some t => exact congrArg (t :: ·) hrest

end Scan

/-- Blanks that part no two digits make no difference to the value of a text that has no stray
characters. -/
theorem compute_filter_blanks {expression : String} (hlegal : Text.Legal expression.toList)
    (hparts : ¬Text.PartsDigits expression.toList) :
    compute (String.ofList (expression.toList.filter fun c => !Text.isBlank c)) =
      compute expression := by
  let kept := expression.toList.filter fun c => !Text.isBlank c
  have hkept : Text.Legal kept := fun c hc => hlegal c (List.mem_filter.mp hc).1
  have hscan : Scan.ofChars 0 kept = Scan.ofChars 0 expression.toList := by
    rw [Scan.mk.injEq, Scan.stray?_ofChars hkept, Scan.stray?_ofChars hlegal]
    exact ⟨Scan.tokens_ofChars_filter hparts 0 0, rfl⟩
  unfold compute Scan.ofString
  rw [String.toList_ofList]
  exact congrArg Scan.value hscan

end Reckoner

import Reckoner.Expression.Outcome
import Reckoner.Number.Numeral

/-! The characters in the texts of doubles. No such text is empty or reads like the one shown for a
failure, so what is shown tells whether there was a value. -/
namespace Reckoner.Number

/-- Digits and signs, and the letters of an exponent, of infinity and of what is not a number. -/
def alphabet : List Char := Text.digits ++ ['.', '+', '-', 'e', 'i', 'n', 'f', 'a']

theorem toDigits_subset (n : Nat) : toDigits n ⊆ alphabet := by
  intro c hc
  exact List.mem_append_left _ (Text.mem_digits_iff.mpr (isDigit_of_mem_toDigits hc))

theorem replicate_zero_subset (n : Nat) : List.replicate n '0' ⊆ alphabet := by
  intro c hc
  rw [List.eq_of_mem_replicate hc]
  decide

theorem plain_subset {digits : List Char} (h : digits ⊆ alphabet) (leading : Int) :
    plain digits leading ⊆ alphabet := by
  have hzero : '0' ∈ alphabet := by decide
  have hpoint : '.' ∈ alphabet := by decide
  unfold plain
  split
  · have hfraction : (if (digits.drop (leading.toNat + 1)).isEmpty then ['0']
        else digits.drop (leading.toNat + 1)) ⊆ alphabet := by
      split
      · decide
      · exact List.Subset.trans (List.drop_subset _ digits) h
    simp only [List.append_subset, List.cons_subset]
    have htake := List.Subset.trans (List.take_subset (leading.toNat + 1) digits) h
    exact ⟨⟨htake, replicate_zero_subset _⟩, hpoint, hfraction⟩
  · simp only [List.append_subset, List.cons_subset]
    exact ⟨⟨hzero, hpoint, replicate_zero_subset _⟩, h⟩

theorem scientific_subset {digits : List Char} (h : digits ⊆ alphabet) (leading : Int) :
    scientific digits leading ⊆ alphabet := by
  have hpoint : (if digits.length ≤ 1 then [] else '.' :: digits.drop 1) ⊆ alphabet := by
    split
    · exact List.nil_subset _
    · exact List.cons_subset.mpr ⟨by decide, List.Subset.trans (List.drop_subset _ digits) h⟩
  have hsign : (if leading < 0 then '-' else '+') ∈ alphabet := by
    split <;> decide
  have hmark : 'e' ∈ alphabet := by decide
  unfold scientific
  simp only [List.append_subset, List.cons_subset]
  have htake := List.Subset.trans (List.take_subset 1 digits) h
  exact ⟨⟨⟨htake, hpoint⟩, hmark, hsign, replicate_zero_subset _⟩, toDigits_subset _⟩

theorem Decimal.significant_subset (d : Decimal) : d.significant ⊆ alphabet := by
  intro c hc
  have hmem := (List.dropWhile_suffix _).subset (List.mem_reverse.mp hc)
  exact toDigits_subset d.digits (List.mem_reverse.mp hmem)

theorem Decimal.text_subset (d : Decimal) : d.text ⊆ alphabet := by
  unfold Decimal.text
  split
  · exact plain_subset d.significant_subset _
  · exact scientific_subset d.significant_subset _

theorem magnitudeText_subset (rank : Nat) : magnitudeText rank ⊆ alphabet := by
  unfold magnitudeText
  split
  · decide
  split
  · decide
  · exact (shortest rank).text_subset

theorem numeralChars_subset (x : Float) : numeralChars x ⊆ alphabet := by
  unfold numeralChars
  split
  · decide
  split
  · exact List.cons_subset.mpr ⟨by decide, magnitudeText_subset _⟩
  · exact magnitudeText_subset _

theorem Decimal.text_ne_nil (d : Decimal) : d.text ≠ [] := by
  unfold Decimal.text plain scientific
  split
  · split <;> simp
  · simp

theorem numeralChars_ne_nil (x : Float) : numeralChars x ≠ [] := by
  have hmagnitude : magnitudeText (rank x) ≠ [] := by
    unfold magnitudeText
    split
    · simp
    split
    · simp
    · exact Decimal.text_ne_nil _
  unfold numeralChars
  split
  · simp
  split
  · simp
  · exact hmagnitude

theorem numeral_ne_empty (x : Float) : numeral x ≠ "" := by
  intro h
  exact numeralChars_ne_nil x (String.ofList_eq_empty_iff.mp h)

theorem numeral_ne_errorText (x : Float) : numeral x ≠ Outcome.errorText := by
  intro h
  have hchars : numeralChars x = Outcome.errorText.toList := by
    rw [← h, numeral, String.toList_ofList]
  have hcapital : 'E' ∈ numeralChars x := by
    rw [hchars]
    decide
  exact absurd (numeralChars_subset x hcapital) (by decide)

end Reckoner.Number

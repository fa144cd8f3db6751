import Reckoner.Proofs.Expression.Recognition

/-! Blanks put into a text. Between two digits they would part a literal; anywhere else the value of
the text or its fault stays the same, and a stray character that they come before stands further on.
-/
namespace Reckoner

/-- Where a character stands once `width` others have been put in at `place`. -/
def Text.moved (place width position : Nat) : Nat :=
  if place ≤ position then position + width else position

namespace Fault

variable {fault : Fault}

/-- The same fault, once `width` characters have been put into the text at `place`. -/
def moved (place width : Nat) : Fault → Fault
  | strayCharacter c position => strayCharacter c (Text.moved place width position)
  | fault => fault

@[simp] theorem kind_moved (place width : Nat) (fault : Fault) :
    (fault.moved place width).kind = fault.kind := by
  cases fault <;> rfl

theorem moved_eq_self (place width : Nat) (h : fault.position? = none) :
    fault.moved place width = fault := by
  cases fault with
  | strayCharacter c position => cases h
  | _ => rfl

end Fault

namespace Scan

/-- The same scan, once `width` blanks have been put into the text at `place`. -/
def moved (place width : Nat) (s : Scan) : Scan :=
  { s with stray? := s.stray?.map fun (c, position) => (c, Text.moved place width position) }

theorem bounds_of_stray? {p q : Nat} {cs : List Char} {c : Char}
    (h : (ofChars p cs).stray? = some (c, q)) : p ≤ q ∧ q < p + cs.length := by
  have hlegal : ¬Text.Legal cs := by
    intro hlegal
    rw [stray?_eq_none_iff.mpr hlegal] at h
    cases h
  obtain ⟨before, d, after, rfl, hbefore, hblank, hd⟩ := Text.exists_first_stray hlegal
  rw [ofChars_first_stray hbefore hblank hd] at h
  cases h
  rw [List.length_append, List.length_cons]
  omega

/-- A text that stands behind the place has moved as a whole. -/
theorem ofChars_add {place p : Nat} (h : place ≤ p) (width : Nat) (cs : List Char) :
    ofChars (p + width) cs = (ofChars p cs).moved place width := by
  rw [Scan.mk.injEq]
  refine ⟨tokens_ofChars _ _ cs, ?_⟩
  rw [stray?_ofChars_add]
  cases hstray : (ofChars p cs).stray? with
  | none => simp [moved, hstray]
  | some stray =>
    obtain ⟨c, q⟩ := stray
    have hq := (bounds_of_stray? hstray).1
    have hmoved : Text.moved place width q = q + width := if_pos (by omega)
    simp [moved, hstray, hmoved]

/-- A text that ends at the place stays where it is. -/
theorem moved_ofChars (width : Nat) (cs : List Char) :
    (ofChars 0 cs).moved cs.length width = ofChars 0 cs := by
  rw [Scan.mk.injEq]
  refine ⟨rfl, ?_⟩
  cases hstray : (ofChars 0 cs).stray? with
  | none => simp [moved, hstray]
  | some stray =>
    obtain ⟨c, q⟩ := stray
    have hq := (bounds_of_stray? hstray).2
    have hmoved : Text.moved cs.length width q = q := if_neg (by omega)
    simp [moved, hstray, hmoved]

theorem moved_append (place width : Nat) (s t : Scan) :
    (s.append t).moved place width = (s.moved place width).append (t.moved place width) := by
  obtain ⟨tokens, stray?⟩ := s
  cases stray? <;> rfl

theorem ofChars_insert_blanks {before gap after : List Char}
    (hgap : ∀ c ∈ gap, Text.isBlank c = true) (hseam : Text.digitsMeet before after = false) :
    ofChars 0 (before ++ (gap ++ after)) =
      (ofChars 0 (before ++ after)).moved before.length gap.length := by
  have hseam' : Text.digitsMeet before (gap ++ after) = false := by
    cases gap with
    | nil => exact hseam
    | cons b gap =>
      have hb : Text.isBlank b = true := hgap b List.mem_cons_self
      exact Text.digitsMeet_cons (Text.isDigit_eq_false_of_isBlank hb) before (gap ++ after)
  have hbehind : before.length ≤ 0 + before.length := by omega
  rw [ofChars_append hseam', ofChars_append hseam, ofChars_blanks hgap, moved_append,
    moved_ofChars, ofChars_add hbehind]

/-- Only the fault that a stray character is shows that it has moved. -/
theorem value_moved (place width : Nat) (s : Scan) :
    (s.moved place width).value = s.value.mapError (Fault.moved place width) := by
  obtain ⟨tokens, stray?⟩ := s
  simp only [value, machine, moved]
  cases hrun : Machine.start.run tokens with
  | error fault =>
    have hplace := (Machine.failsOnly_run _ _ fault hrun).position?
    have hfault := Fault.moved_eq_self place width hplace
    simp [bind, Except.bind, Except.mapError, hfault]
  | ok m =>
    cases stray? with
    | some stray => rfl
    | none =>
      cases hfinish : m.finish with
      | ok value => simp [bind, Except.bind, Except.mapError, hfinish]
      | error fault =>
        have hplace := (Machine.failsOnly_finish m fault hfinish).position?
        have hfault := Fault.moved_eq_self place width hplace
        simp [bind, Except.bind, Except.mapError, hfinish, hfault]

end Scan

/-- Blanks that part no two digits change neither the value of a text nor its fault, but for the
position of a stray character that they come before. -/
theorem compute_insert_blanks (before gap after : String)
    (hgap : ∀ c ∈ gap.toList, Text.isBlank c = true)
    (hseam : Text.digitsMeet before.toList after.toList = false) :
    (∀ value, compute (before ++ after) = .ok value →
      compute (before ++ gap ++ after) = .ok value) ∧
    ∀ fault, compute (before ++ after) = .error fault →
      ∃ moved, compute (before ++ gap ++ after) = .error moved ∧ moved.kind = fault.kind ∧
        (fault.kind ≠ .invalidCharacter → moved.detail = fault.detail) ∧
        ∀ c position, fault = .strayCharacter c position →
          moved = .strayCharacter c
            (if before.length ≤ position then position + gap.length else position) := by
  have hcompute : compute (before ++ gap ++ after) =
      (compute (before ++ after)).mapError (Fault.moved before.length gap.length) := by
    have hscan := Scan.ofChars_insert_blanks hgap hseam
    simp only [String.length_toList] at hscan
    simp only [compute, Scan.ofString, String.toList_append, List.append_assoc, hscan,
      Scan.value_moved]
  constructor
  · intro value hvalue
    rw [hcompute, hvalue]
    rfl
  · intro fault hfault
    refine ⟨fault.moved before.length gap.length, ?_, fault.kind_moved _ _, ?_, ?_⟩
    · rw [hcompute, hfault]
      rfl
    · intro hkind
      have hplace : fault.position? = none := by
        rw [← Option.not_isSome_iff_eq_none, fault.isSome_position?_iff]
        exact hkind
      rw [Fault.moved_eq_self _ _ hplace]
    · rintro c position rfl
      rfl

/-- A no-break space and a line feed behind a group: the sum stays, a division by zero is still
found before the stray character, and that moves if nothing is found before it. -/
theorem compute_insert_blanks_group :
    compute ("(1+2)" ++ "\u00A0\n" ++ "*4") = .ok 12 ∧
      compute ("(1/0)" ++ "\u00A0\n" ++ "*x") = .error .divisionByZero ∧
      compute ("(1+2)" ++ "\u00A0\n" ++ "*x") = .error (.strayCharacter 'x' 8) := by
  have hall : "\u00A0\n".toList.all Text.isBlank = true := by decide
  have hgap : ∀ c ∈ "\u00A0\n".toList, Text.isBlank c = true := List.all_eq_true.mp hall
  have hproduct : compute ("(1+2)" ++ "*4") = .ok 12 := by decide +kernel
  have hdivision : compute ("(1/0)" ++ "*x") = .error .divisionByZero := by decide +kernel
  have hstray : compute ("(1+2)" ++ "*x") = .error (.strayCharacter 'x' 6) := by decide +kernel
  obtain ⟨hsame, -⟩ := compute_insert_blanks "(1+2)" "\u00A0\n" "*4" hgap rfl
  refine ⟨hsame 12 hproduct, ?_, ?_⟩
  · obtain ⟨-, hfault⟩ := compute_insert_blanks "(1/0)" "\u00A0\n" "*x" hgap rfl
    obtain ⟨moved, hmoved, hkind, -⟩ := hfault _ hdivision
    have heq : moved = .divisionByZero := by
      cases moved with
      | divisionByZero => rfl
      | _ => cases hkind
    rw [hmoved, heq]
  · obtain ⟨-, hfault⟩ := compute_insert_blanks "(1+2)" "\u00A0\n" "*x" hgap rfl
    obtain ⟨moved, hmoved, -, -, hplace⟩ := hfault _ hstray
    rw [hmoved, hplace 'x' 6 rfl]
    rfl

end Reckoner

import Reckoner.Proofs.Expression.Faults
import Reckoner.Proofs.Expression.Joining

/-! Of several faults the evaluator reports the one that it meets first. What is found while the
tokens are read does not depend on the text that follows; only the checks at the end do. -/
namespace Reckoner

theorem Text.digitsMeet_rdropWhile (cs ds : List Char) :
    digitsMeet (cs.rdropWhile isDigit) ds = false := by
  unfold digitsMeet
  by_cases hne : cs.rdropWhile isDigit = []
  · rw [hne]
    rfl
  · have hlast := List.rdropWhile_last_not isDigit cs hne
    rw [List.getLast?_eq_some_getLast hne, Option.any_some, Bool.eq_false_iff.mpr hlast,
      Bool.false_and]

theorem Token.isDigit_eq_false {c : Char} (h : c ∉ alphabet) : Text.isDigit c = false :=
  Bool.eq_false_iff.mpr fun hd => h (List.mem_append_left _ (Text.mem_digits_iff.mpr hd))

theorem Token.ofSign?_eq_none {c : Char} (h : c ∉ alphabet) : ofSign? c = none := by
  have hopening : '(' ∈ alphabet := by decide
  have hclosing : ')' ∈ alphabet := by decide
  have hsymbol : ∀ op : Operator, op.symbol ∈ alphabet := by
    intro op
    cases op <;> decide
  have hoperator : Operator.ofChar? c = none := by
    refine List.find?_eq_none.mpr fun op _ hop => ?_
    exact h (of_decide_eq_true hop ▸ hsymbol op)
  rw [ofSign?, if_neg (ne_of_mem_of_not_mem hopening h).symm,
    if_neg (ne_of_mem_of_not_mem hclosing h).symm, hoperator]
  rfl

namespace Scan

/-- Literals never stop the machine. -/
theorem exists_machineFrom_digits {ds : List Char} (hd : ∀ c ∈ ds, Text.isDigit c = true)
    (position : Nat) (m : Machine) : ∃ next, (ofChars position ds).machineFrom m = .ok next := by
  by_cases hne : ds = []
  · exact ⟨m, by rw [hne]; rfl⟩
  · have hscan : ofChars position (ds ++ []) = ⟨[.number ds], none⟩ :=
      ofChars_digits hne hd position rfl
    rw [List.append_nil] at hscan
    exact ⟨_, by rw [hscan]; rfl⟩

/-- What stops the machine within a text also stops it if more text follows. -/
theorem machineFrom_append_of_error {position : Nat} {cs : List Char} {m : Machine} {fault : Fault}
    (h : (ofChars position cs).machineFrom m = .error fault) (ds : List Char) :
    (ofChars position (cs ++ ds)).machineFrom m = .error fault := by
  -- A last literal may go on in the text that follows, so the parts meet in front of it.
  let front := cs.rdropWhile Text.isDigit
  let literal := cs.rtakeWhile Text.isDigit
  have hcs : cs = front ++ literal := List.rdropWhile_append_rtakeWhile.symm
  have hseam := Text.digitsMeet_rdropWhile cs
  have hfront : (ofChars position front).machineFrom m = .error fault := by
    rw [hcs, ofChars_append (hseam literal), machineFrom_append] at h
    cases hfront : (ofChars position front).machineFrom m with
    | error earlier =>
      rw [hfront] at h
      exact h
    | ok next =>
      obtain ⟨final, hfinal⟩ := exists_machineFrom_digits
        (fun c hc => List.mem_rtakeWhile_imp hc) (position + front.length) next
      rw [hfront] at h
      exact absurd (h.symm.trans hfinal) nofun
  rw [hcs, List.append_assoc, ofChars_append (hseam _), machineFrom_append, hfront]
  rfl

theorem ofChars_stray {c : Char} (hblank : Text.isBlank c = false) (hc : c ∉ Token.alphabet)
    (position : Nat) (rest : List Char) :
    ofChars position (c :: rest) = ⟨[], some (c, position)⟩ := by
  rw [ofChars, if_neg (by simp [hblank]), if_neg (by simp [Token.isDigit_eq_false hc]),
    Token.ofSign?_eq_none hc]

theorem machineFrom_stray {c : Char} (hblank : Text.isBlank c = false) (hc : c ∉ Token.alphabet)
    (m : Machine) (position : Nat) (before after : List Char) :
    (ofChars position (before ++ c :: after)).machineFrom m =
      (ofChars position before).machineFrom m >>= fun _ =>
        .error (.strayCharacter c (position + before.length)) := by
  have hseam := Text.digitsMeet_cons (Token.isDigit_eq_false hc) before after
  rw [ofChars_append hseam, machineFrom_append, ofChars_stray hblank hc]
  rfl

end Scan

/-- The fault at which the machine stops within the first part of a text is that of the text. In
particular, the first stray character is reported exactly if the machine accepts what is before it,
and what is after it makes no difference. -/
theorem first_fault_wins (before after : String) :
    (∀ fault, (Scan.ofString before).machine = .error fault →
      compute (before ++ after) = .error fault) ∧
    ∀ c, (∀ d ∈ before.toList, Text.isBlank d = true ∨ d ∈ Token.alphabet) →
      Text.isBlank c = false → c ∉ Token.alphabet →
      let stray := Fault.strayCharacter c before.length
      compute (before ++ String.singleton c ++ after) =
        (match (Scan.ofString before).machine with
          | .ok _ => .error stray
          | .error fault => .error fault) ∧
      ((∃ m, (Scan.ofString before).machine = .ok m) ↔
        compute (before ++ String.singleton c ++ after) = .error stray) ∧
      stray.kind = .invalidCharacter ∧ stray.position? = some before.length ∧
      stray.detail = "Unexpected character " ++ Text.quote (String.singleton c) ++
        " at position " ++ String.ofList (Number.toDigits before.length) := by
  refine ⟨?_, ?_⟩
  · intro fault h
    have hmachine : (Scan.ofString (before ++ after)).machine = .error fault := by
      rw [Scan.ofString, String.toList_append]
      exact Scan.machineFrom_append_of_error h after.toList
    rw [compute, Scan.value, hmachine]
    rfl
  · intro c hbefore hblank hc stray
    have hmachine : (Scan.ofString (before ++ String.singleton c ++ after)).machine =
        (Scan.ofString before).machine >>= fun _ => .error stray := by
      have hchars : (before ++ String.singleton c ++ after).toList =
          before.toList ++ c :: after.toList := by simp
      have hmachine := Scan.machineFrom_stray hblank hc .start 0 before.toList after.toList
      rw [Nat.zero_add, String.length_toList] at hmachine
      rw [Scan.ofString, hchars]
      exact hmachine
    have hcompute : compute (before ++ String.singleton c ++ after) =
        (match (Scan.ofString before).machine with
          | .ok _ => .error stray
          | .error fault => .error fault) := by
      rw [compute, Scan.value, hmachine]
      cases (Scan.ofString before).machine <;> rfl
    refine ⟨hcompute, ?_, rfl, rfl, rfl⟩
    rw [hcompute]
    cases hrun : (Scan.ofString before).machine with
    | ok m => simp
    | error fault =>
      -- Only the scan finds stray characters, and it finds none before this one.
      have hne : fault ≠ stray := by
        rintro rfl
        have hstray : (Scan.ofString before).stray? = none := Scan.stray?_ofChars hbefore 0
        have hfault := Machine.failsOnly_run .start (Scan.ofString before).tokens stray
          ((Scan.machineFrom_of_stray?_eq_none hstray .start).symm.trans hrun)
        exact absurd hfault.position? nofun
      simp [hne]

/-- A division by zero that the minus brings about, with a closing parenthesis and a stray sign still
to come, and a digit of another script after a text that the end would have found to be malformed. -/
theorem first_fault_wins_division :
    (Scan.ofString "1/0-").machine = .error .divisionByZero ∧
      compute ("1/0-" ++ "2)$") = .error .divisionByZero ∧
      compute ("2 7 (" ++ String.singleton '٣' ++ "/0") = .error (.strayCharacter '٣' 5) := by
  have hdivision : (Scan.ofString "1/0-").machine = .error .divisionByZero := rfl
  have hall : "2 7 (".toList.all
      (fun d => Text.isBlank d || Token.alphabet.contains d) = true := by
    decide
  have hlegal : ∀ d ∈ "2 7 (".toList, Text.isBlank d = true ∨ d ∈ Token.alphabet := by
    intro d hd
    have hchar := List.all_eq_true.mp hall d hd
    rwa [Bool.or_eq_true, List.contains_iff_mem] at hchar
  obtain ⟨-, hstray⟩ := first_fault_wins "2 7 (" "/0"
  obtain ⟨-, hiff, -⟩ := hstray '٣' hlegal (by decide) (by decide)
  exact ⟨hdivision, (first_fault_wins "1/0-" "2)$").1 _ hdivision, hiff.mp ⟨_, rfl⟩⟩

end Reckoner

import Mathlib.Data.List.DropRight
import Reckoner.Proofs.Expression.Alphabet

/-! Texts written one after the other. Unless a literal runs across the seam, the scan of the whole
is the scan of its parts, and the evaluator goes on with the second part where it has come to with
the first. -/
namespace Reckoner

/-- A literal runs from the end of one text into the next. -/
def Text.digitsMeet (cs ds : List Char) : Bool :=
  cs.getLast?.any isDigit && ds.head?.any isDigit

theorem Text.digitsMeet_cons {d : Char} (hd : isDigit d = false) (cs ds : List Char) :
    digitsMeet cs (d :: ds) = false := by
  simp [digitsMeet, hd]

namespace Scan

/-- The scan of a text and then of the next one, unless the first ends at a stray character. -/
def append (s t : Scan) : Scan :=
  match s.stray? with
  | some _ => s
  | none => ⟨s.tokens ++ t.tokens, t.stray?⟩

@[simp] theorem cons_append (t : Token) (s u : Scan) :
    (s.cons t).append u = (s.append u).cons t := by
  obtain ⟨tokens, stray?⟩ := s
  cases stray? <;> rfl

theorem exists_cons_of_isDigit {c : Char} (hc : Text.isDigit c = true) (position : Nat)
    (rest : List Char) :
    ∃ digits s, ofChars position (c :: rest) = cons (.number digits) s := by
  rw [ofChars, if_neg (by simp [Text.isBlank_eq_false_of_isDigit hc]), if_pos hc]
  obtain ⟨tokens, stray?⟩ := ofChars (position + 1) rest
  unfold consDigit
  split
  · split
    · exact ⟨_, ⟨_, _⟩, rfl⟩
    · exact ⟨_, ⟨_, _⟩, rfl⟩
  · exact ⟨_, _, rfl⟩

theorem ofChars_append {cs ds : List Char} (h : Text.digitsMeet cs ds = false) (position : Nat) :
    ofChars position (cs ++ ds) =
      (ofChars position cs).append (ofChars (position + cs.length) ds) := by
  induction cs generalizing position with
  | nil => rfl
  | cons c rest ih =>
    have hrest : Text.digitsMeet rest ds = false := by
      cases rest with
      | nil => rfl
      | cons d rest => simpa [Text.digitsMeet] using h
    have hlength : position + (c :: rest).length = position + 1 + rest.length := by
      simp only [List.length_cons]
      omega
    simp only [List.cons_append, ofChars, ih hrest, hlength]
    split
    · rfl
    split
    · next hdigit =>
      -- The digit joins the literal after it only if that begins at once, within the first text.
      cases rest with
      | nil =>
        have hnext : ds.head?.any Text.isDigit = false := by
          simpa [Text.digitsMeet, hdigit] using h
        rw [List.nil_append, hnext, consDigit_false]
        rfl
      | cons d rest =>
        cases hd : Text.isDigit d with
        | false =>
          simp only [List.cons_append, List.head?_cons, Option.any_some, hd, consDigit_false,
            cons_append]
        | true =>
          obtain ⟨digits, s, hs⟩ := exists_cons_of_isDigit hd (position + 1) rest
          simp only [List.cons_append, List.head?_cons, Option.any_some, hd, hs, cons_append,
            consDigit_true_cons]
    · cases Token.ofSign? c with
      | none => rfl
      | some t => exact (cons_append t _ _).symm

/-- A stray character is the same one wherever the text stands, and stands as far on as the text. -/
theorem stray?_ofChars_add (p width : Nat) (cs : List Char) :
    (ofChars (p + width) cs).stray? =
      (ofChars p cs).stray?.map fun (c, position) => (c, position + width) := by
  induction cs generalizing p with
  | nil => rfl
  | cons c rest ih =>
    have hrest := ih (p + 1)
    rw [Nat.add_right_comm] at hrest
    simp only [ofChars]
    split
    · exact hrest
    split
    · simp only [stray?_consDigit]
      exact hrest
    · cases Token.ofSign? c with
      | none => rfl
      | some t => exact hrest

/-- Without a stray character the scan does not tell where the text stands. -/
theorem ofChars_eq_of_stray?_eq_none {p : Nat} {cs : List Char}
    (h : (ofChars p cs).stray? = none) (q : Nat) : ofChars q cs = ofChars p cs := by
  have hp := stray?_ofChars_add 0 p cs
  have hq := stray?_ofChars_add 0 q cs
  rw [Nat.zero_add] at hp hq
  have hzero : (ofChars 0 cs).stray? = none := Option.map_eq_none_iff.mp (hp.symm.trans h)
  rw [hzero, Option.map_none] at hq
  rw [Scan.mk.injEq, hq, h]
  exact ⟨tokens_ofChars q p cs, rfl⟩

/-- The machine after the last token, if it goes on from `m`. -/
def machineFrom (m : Machine) (s : Scan) : Except Fault Machine := do
  let next ← m.run s.tokens
  match s.stray? with
  | some (c, position) => .error (.strayCharacter c position)
  | none => .ok next

/-- The value of an expression of which `m` has read what comes before the scanned part. -/
def valueFrom (m : Machine) (s : Scan) : Except Fault Float := do
  let next ← s.machineFrom m
  next.finish

@[simp] theorem machineFrom_append (m : Machine) (s t : Scan) :
    (s.append t).machineFrom m = s.machineFrom m >>= t.machineFrom := by
  obtain ⟨tokens, stray?⟩ := s
  cases stray? with
  | none =>
    have hrun := Machine.run_append m tokens t.tokens
    simp only [machineFrom, append, hrun]
    cases m.run tokens <;> rfl
  | some stray =>
    simp only [machineFrom, append]
    cases m.run tokens <;> rfl

@[simp] theorem machineFrom_cons (m : Machine) (t : Token) (s : Scan) :
    (s.cons t).machineFrom m = m.step t >>= s.machineFrom := by
  simp only [machineFrom, cons, Machine.run]
  cases m.step t <;> rfl

theorem machineFrom_of_stray?_eq_none {s : Scan} (h : s.stray? = none) (m : Machine) :
    s.machineFrom m = m.run s.tokens := by
  rw [machineFrom, h]
  exact bind_pure _

theorem machineFrom_eq_ok_iff {m next : Machine} {s : Scan} :
    s.machineFrom m = .ok next ↔ m.run s.tokens = .ok next ∧ s.stray? = none := by
  obtain ⟨tokens, stray?⟩ := s
  simp only [machineFrom]
  cases m.run tokens <;> cases stray? <;> simp [bind, Except.bind]

end Scan

end Reckoner

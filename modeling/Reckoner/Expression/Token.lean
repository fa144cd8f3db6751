import Reckoner.Expression.Operator
import Reckoner.Text.Blank
import Reckoner.Text.Digit

/-! The tokens of an expression and the scan that finds them. Every character is a blank, a part of
a token, or stray; the scan ends at the first stray one. -/
namespace Reckoner

/-- A literal keeps its digits as they were written. -/
inductive Token where
  | number (digits : List Char)
  | operator (op : Operator)
  | opening
  | closing
  deriving DecidableEq, Repr

namespace Token

def chars : Token → List Char
  | number digits => digits
  | operator op => [op.symbol]
  | opening => ['(']
  | closing => [')']

def text (t : Token) : String := String.ofList t.chars

def ofSign? (c : Char) : Option Token :=
  if c = '(' then some opening
  else if c = ')' then some closing
  else (Operator.ofChar? c).map operator

theorem chars_of_ofSign? {c : Char} {t : Token} (h : ofSign? c = some t) : t.chars = [c] := by
  simp only [ofSign?] at h
  split at h
  · next hc => cases h; simp [chars, hc]
  split at h
  · next hc => cases h; simp [chars, hc]
  · obtain ⟨op, hop, rfl⟩ := Option.map_eq_some_iff.mp h
    simp [chars, Operator.symbol_of_ofChar? hop]

end Token

/-- The tokens before the first stray character, and that character with its position. -/
structure Scan where
  tokens : List Token
  stray? : Option (Char × Nat)
  deriving DecidableEq, Repr

namespace Scan

def cons (t : Token) (s : Scan) : Scan := { s with tokens := t :: s.tokens }

/-- A digit joins the literal that follows it at once, and is a literal of its own otherwise. -/
def consDigit (c : Char) (adjacent : Bool) : Scan → Scan
  | ⟨.number digits :: rest, stray?⟩ =>
    if adjacent then ⟨.number (c :: digits) :: rest, stray?⟩
    else ⟨.number [c] :: .number digits :: rest, stray?⟩
  | s => s.cons (.number [c])

def ofChars (position : Nat) : List Char → Scan
  | [] => ⟨[], none⟩
  | c :: rest =>
    if Text.isBlank c then ofChars (position + 1) rest
    else if Text.isDigit c then
      (ofChars (position + 1) rest).consDigit c (rest.head?.any Text.isDigit)
    else match Token.ofSign? c with
      | some t => (ofChars (position + 1) rest).cons t
      | none => ⟨[], some (c, position)⟩

def ofString (s : String) : Scan := ofChars 0 s.toList

@[simp] theorem ofChars_blank {c : Char} (h : Text.isBlank c = true) (position : Nat)
    (rest : List Char) :
    ofChars position (c :: rest) = ofChars (position + 1) rest := by
  simp [ofChars, h]

theorem tokens_consDigit_congr (c : Char) (adjacent : Bool) {s t : Scan} (h : s.tokens = t.tokens) :
    (s.consDigit c adjacent).tokens = (t.consDigit c adjacent).tokens := by
  obtain ⟨ts, a⟩ := s
  obtain ⟨us, b⟩ := t
  obtain rfl : ts = us := h
  unfold consDigit
  rcases ts with _ | ⟨_ | _ | _ | _, ts⟩ <;> cases adjacent <;> rfl

/-- Where the first character stands matters for the position of a stray one only. -/
theorem tokens_ofChars (p q : Nat) (cs : List Char) :
    (ofChars p cs).tokens = (ofChars q cs).tokens := by
  induction cs generalizing p q with
  | nil => rfl
  | cons c rest ih =>
    have h := ih (p + 1) (q + 1)
    simp only [ofChars]
    split
    · exact h
    split
    · exact tokens_consDigit_congr c _ h
    · cases Token.ofSign? c with
      | none => rfl
      | some t => simp [cons, h]

end Scan

end Reckoner

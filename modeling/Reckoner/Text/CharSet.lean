/-! The distinct characters of a text in ascending order of their code points. -/
namespace Reckoner.Text

def insertChar (c : Char) : List Char → List Char
  | [] => [c]
  | d :: rest =>
    if c < d then c :: d :: rest
    else if c = d then d :: rest
    else d :: insertChar c rest

def charSet (cs : List Char) : List Char := cs.foldr insertChar []

@[simp] theorem mem_insertChar {x c : Char} {cs : List Char} :
    x ∈ insertChar c cs ↔ x = c ∨ x ∈ cs := by
  induction cs with
  | nil => simp [insertChar]
  | cons d rest ih =>
    simp only [insertChar]
    split
    · simp
    split
    · next h => subst h; simp
    · simp only [List.mem_cons, ih]
      grind

@[simp] theorem mem_charSet {x : Char} {cs : List Char} : x ∈ charSet cs ↔ x ∈ cs := by
  induction cs with
  | nil => simp [charSet]
  | cons c rest ih => simpa [charSet] using or_congr_right ih

theorem pairwise_insertChar (c : Char) {cs : List Char} (h : cs.Pairwise (· < ·)) :
    (insertChar c cs).Pairwise (· < ·) := by
  induction cs with
  | nil => simp [insertChar]
  | cons d rest ih =>
    obtain ⟨hfirst, hrest⟩ := List.pairwise_cons.mp h
    simp only [insertChar]
    split
    · next hlt =>
      refine List.pairwise_cons.mpr ⟨?_, h⟩
      intro x hx
      rcases List.mem_cons.mp hx with rfl | hx
      · exact hlt
      · exact Char.lt_trans hlt (hfirst x hx)
    split
    · exact h
    · next hlt hne =>
      refine List.pairwise_cons.mpr ⟨?_, ih hrest⟩
      intro x hx
      rcases mem_insertChar.mp hx with rfl | hx
      · have hle : d ≤ x := Char.not_lt.mp hlt
        exact Char.not_le.mp fun hge => hne (Char.le_antisymm hge hle)
      · exact hfirst x hx

/-- Every character stands once, and behind those with smaller code points. -/
theorem pairwise_charSet (cs : List Char) : (charSet cs).Pairwise (· < ·) := by
  induction cs with
  | nil => exact .nil
  | cons c rest ih => exact pairwise_insertChar c ih

end Reckoner.Text

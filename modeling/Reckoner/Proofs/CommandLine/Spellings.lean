import Reckoner.CommandLine.Flag

/-! How an argument is taken apart at its first equals sign, and which texts spell no option. -/
namespace Reckoner.CommandLine

namespace Flag

theorem ofSpelling?_eq_none_iff {s : String} :
    ofSpelling? s = none ↔ ∀ entry ∈ spellings, s ≠ entry.1 := by
  simp [ofSpelling?, List.lookup_eq_none_iff]

/-- No option is spelled with an equals sign. -/
theorem ofSpelling?_eq_none_of_equals {s : String} (h : '=' ∈ s.toList) :
    ofSpelling? s = none := by
  have hall : ∀ entry ∈ spellings, '=' ∉ entry.1.toList := by decide
  rw [ofSpelling?_eq_none_iff]
  rintro entry hentry rfl
  exact hall entry hentry h

end Flag

namespace Argument

private theorem ne_equals {cs : List Char} (h : '=' ∉ cs) :
    ∀ c ∈ cs, decide (c ≠ '=') = true :=
  fun _ hc => decide_eq_true (ne_of_mem_of_not_mem hc h)

theorem splitValue?_eq_none {cs : List Char} (h : '=' ∉ cs) : splitValue? cs = none := by
  have hall : cs.dropWhile (fun c => decide (c ≠ '=')) = [] := by
    have happend : (cs ++ []).dropWhile (fun c => decide (c ≠ '=')) = [] :=
      List.dropWhile_append_of_pos (ne_equals h)
    rwa [List.append_nil] at happend
  unfold splitValue?
  rw [hall]

theorem splitValue?_append {spelling : List Char} (h : '=' ∉ spelling) (value : List Char) :
    splitValue? (spelling ++ '=' :: value) = some (spelling, value) := by
  unfold splitValue?
  rw [List.dropWhile_append_of_pos (ne_equals h), List.takeWhile_append_of_pos (ne_equals h)]
  simp

/-- An option that is spelled out before an equals sign takes all that follows for its value. -/
theorem spelledOut?_append {spelling : String} {flag : Flag} (h : '=' ∉ spelling.toList)
    (hflag : Flag.ofSpelling? spelling = some flag) (value : String) :
    spelledOut? (spelling.toList ++ '=' :: value.toList) =
      some (.option flag (hasOneDash spelling.toList) (some value)) := by
  have hwhole : Flag.ofSpelling? (String.ofList (spelling.toList ++ '=' :: value.toList)) = none :=
    Flag.ofSpelling?_eq_none_of_equals (by simp)
  unfold spelledOut?
  rw [hwhole, splitValue?_append h]
  simp [hflag]

end Argument

end Reckoner.CommandLine

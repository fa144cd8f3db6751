/-! Capitals as far as they are ASCII. A text turns into an ASCII word here exactly when its full
Unicode capitalisation is that word, because every character that is kept keeps it out of ASCII. -/
namespace Reckoner.Text

/-- Besides the small ASCII letters, ten characters have a capital form that is all ASCII. -/
def capital (c : Char) : List Char :=
  if 97 ≤ c.toNat && c.toNat ≤ 122 then [Char.ofNat (c.toNat - 32)]
  else match c.toNat with
    | 0x131 => ['I']
    | 0x17F => ['S']
    | 0xDF => ['S', 'S']
    | 0xFB00 => ['F', 'F']
    | 0xFB01 => ['F', 'I']
    | 0xFB02 => ['F', 'L']
    | 0xFB03 => ['F', 'F', 'I']
    | 0xFB04 => ['F', 'F', 'L']
    | 0xFB05 => ['S', 'T']
    | 0xFB06 => ['S', 'T']
    | _ => [c]

/-- A capitalisation that may go further: where it differs, neither what it makes of a character nor
what is made of it here is all ASCII. -/
def Completes (full : Char → List Char) : Prop :=
  ∀ c, full c = capital c ∨
    ((∃ d ∈ full c, 0x80 ≤ d.toNat) ∧ ∃ d ∈ capital c, 0x80 ≤ d.toNat)

theorem flatMap_ne_of_mem {f : Char → List Char} {c : Char} {cs word : List Char} (hc : c ∈ cs)
    (hf : ∃ d ∈ f c, 0x80 ≤ d.toNat) (hword : ∀ d ∈ word, d.toNat < 0x80) :
    cs.flatMap f ≠ word := by
  rintro rfl
  obtain ⟨d, hd, hhigh⟩ := hf
  have hlow := hword d (List.mem_flatMap.mpr ⟨c, hc, hd⟩)
  omega

theorem flatMap_eq_iff_of_completes {full : Char → List Char} (h : Completes full)
    {word : List Char} (hword : ∀ d ∈ word, d.toNat < 0x80) (cs : List Char) :
    cs.flatMap full = word ↔ cs.flatMap capital = word := by
  by_cases hall : ∀ c ∈ cs, full c = capital c
  · have hsame : cs.flatMap full = cs.flatMap capital := by
      simp only [List.flatMap, List.map_congr_left hall]
    rw [hsame]
  · obtain ⟨c, hc⟩ := Classical.not_forall.mp hall
    obtain ⟨hc, hdiffers⟩ := Classical.not_imp.mp hc
    obtain ⟨hfull, hcapital⟩ := (h c).resolve_left hdiffers
    have hne := flatMap_ne_of_mem hc hfull hword
    have hne' := flatMap_ne_of_mem hc hcapital hword
    exact ⟨fun heq => absurd heq hne, fun heq => absurd heq hne'⟩

def capitals (s : String) : String := String.ofList (s.toList.flatMap capital)

theorem capitals_eq_iff_of_completes {full : Char → List Char} (h : Completes full)
    {word : String} (hword : word.toList.all (·.toNat < 0x80) = true) (s : String) :
    String.ofList (s.toList.flatMap full) = word ↔ capitals s = word := by
  have hascii : ∀ d ∈ word.toList, d.toNat < 0x80 :=
    fun d hd => of_decide_eq_true (List.all_eq_true.mp hword d hd)
  have hsame := flatMap_eq_iff_of_completes h hascii s.toList
  rw [capitals, ← String.toList_inj, ← String.toList_inj, String.toList_ofList,
    String.toList_ofList]
  exact hsame

end Reckoner.Text

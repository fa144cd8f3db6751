import Mathlib.Algebra.Group.Nat.Even
import Reckoner.Text.Quoted

/-! Quoted texts hold printable characters only and can be read off again, whatever follows them.
-/
namespace Reckoner.Text

/-- All characters of the text are printable. -/
def Visible (s : String) : Prop := ∀ c ∈ s.toList, isPrintable c = true

instance (s : String) : Decidable (Visible s) :=
  decidable_of_iff (s.toList.all isPrintable = true) List.all_eq_true

theorem Visible.append {s t : String} (hs : Visible s) (ht : Visible t) : Visible (s ++ t) := by
  intro c hc
  rw [String.toList_append] at hc
  exact (List.mem_append.mp hc).elim (hs c) (ht c)

theorem Visible.intercalate {separator : String} (hs : Visible separator) {texts : List String}
    (h : ∀ t ∈ texts, Visible t) : Visible (separator.intercalate texts) := by
  induction texts with
  | nil => exact fun c hc => nomatch hc
  | cons t rest ih =>
    have ht : Visible t := h t List.mem_cons_self
    have hrest : Visible (separator.intercalate rest) :=
      ih fun u hu => h u (List.mem_cons_of_mem t hu)
    by_cases hnil : rest = []
    · rw [hnil, String.intercalate_singleton]
      exact ht
    · rw [String.intercalate_cons_of_ne_nil hnil]
      exact (ht.append hs).append hrest

/-- The characters at which a text is split into lines. -/
def lineBreaks : List Char :=
  ['\n', '\x0b', '\x0c', '\r', '\x1c', '\x1d', '\x1e', '\u0085', '\u2028', '\u2029']

theorem isPrintable_of_lineBreak {c : Char} (h : c ∈ lineBreaks) : isPrintable c = false := by
  have hall : lineBreaks.all (fun c => !isPrintable c) = true := by decide +kernel
  simpa using List.all_eq_true.mp hall c h

/-- A text without hidden characters stays on one line. -/
theorem Visible.not_mem_of_lineBreak {s : String} (hs : Visible s) :
    ∀ c ∈ lineBreaks, c ∉ s.toList := by
  intro c hbreak hc
  have hvisible := hs c hc
  rw [isPrintable_of_lineBreak hbreak] at hvisible
  exact Bool.false_ne_true hvisible

/-- What a quoted text may begin and end with. -/
def quoteMarks : List Char := ['\'', '"']

theorem quoteMark_mem (text : List Char) : quoteMark text ∈ quoteMarks := by
  unfold quoteMark
  split <;> decide

/-- How many hexadecimal digits follow a letter after a backslash. -/
def hexWidth? : Char → Option Nat
  | 'x' => some 2
  | 'u' => some 4
  | 'U' => some 8
  | _ => none

/-- What any other character after a backslash stands for. -/
def unescaped : Char → Char
  | 'n' => '\n'
  | 'r' => '\r'
  | 't' => '\t'
  | c => c

/-- The ways to write a character between quotation marks: as itself, by a sign after a backslash,
or by its code point in hexadecimal digits. -/
inductive Written (mark c : Char) : List Char → Prop
  | plain (hmark : c ≠ mark) (hslash : c ≠ '\\') (h : isPrintable c = true) : Written mark c [c]
  | short {sign : Char} (hwidth : hexWidth? sign = none) (hc : unescaped sign = c)
      (h : isPrintable sign = true) : Written mark c ['\\', sign]
  | code {letter : Char} {width : Nat} (hwidth : hexWidth? letter = some width)
      (hc : c.toNat < 16 ^ width) : Written mark c ('\\' :: letter :: hexDigits width c.toNat)

theorem written_escape {mark : Char} (hmark : mark ∈ quoteMarks) (c : Char) :
    Written mark c (escape mark c) := by
  unfold escape
  split
  · next h =>
    have hc : c ∈ '\\' :: quoteMarks := by
      simp only [Bool.or_eq_true, decide_eq_true_eq] at h
      rcases h with rfl | rfl
      · exact List.mem_cons_of_mem _ hmark
      · exact List.mem_cons_self
    simp only [quoteMarks, List.mem_cons, List.not_mem_nil, or_false] at hc
    rcases hc with rfl | rfl | rfl <;> exact .short rfl rfl (by decide)
  next hplain =>
  have hne : c ≠ mark ∧ c ≠ '\\' := by simpa using hplain
  split
  · next h => exact .short rfl h.symm (by decide)
  split
  · next h => exact .short rfl h.symm (by decide)
  split
  · next h => exact .short rfl h.symm (by decide)
  split
  · next h => exact .plain hne.1 hne.2 h
  split
  · next h => exact .code rfl h
  split
  · next h => exact .code rfl h
  · exact .code rfl c.val.toNat_lt

theorem isPrintable_of_mem_hexDigits {width n : Nat} :
    ∀ c ∈ hexDigits width n, isPrintable c = true := by
  have hdigit : ∀ d < 16, isPrintable (Nat.digitChar d) = true := by decide
  induction width generalizing n with
  | zero => exact fun c hc => nomatch hc
  | succ width ih =>
    intro c hc
    rcases List.mem_append.mp hc with hc | hc
    · exact ih c hc
    · rw [List.mem_singleton.mp hc]
      exact hdigit _ (Nat.mod_lt _ (by decide))

theorem isPrintable_of_hexWidth? {letter : Char} {width : Nat}
    (h : hexWidth? letter = some width) : isPrintable letter = true := by
  unfold hexWidth? at h
  split at h
  · decide
  · decide
  · decide
  · cases h

theorem Written.isPrintable {mark c : Char} {cs : List Char} (h : Written mark c cs) :
    ∀ d ∈ cs, isPrintable d = true := by
  have hslash : Text.isPrintable '\\' = true := by decide
  cases h with
  | plain _ _ hc => simpa using hc
  | short _ _ hsign => simpa using ⟨hslash, hsign⟩
  | code hwidth =>
    simp only [List.forall_mem_cons]
    exact ⟨hslash, isPrintable_of_hexWidth? hwidth, isPrintable_of_mem_hexDigits⟩

theorem visible_quote (text : String) : Visible (quote text) := by
  have hmark := quoteMark_mem text.toList
  have hall : quoteMarks.all isPrintable = true := by decide
  have hvisible := List.all_eq_true.mp hall _ hmark
  intro c hc
  rw [quote, String.toList_ofList] at hc
  simp only [quoteChars, List.mem_append, List.mem_cons, List.mem_flatMap, List.not_mem_nil,
    or_false] at hc
  obtain (rfl | ⟨d, -, hd⟩) | rfl := hc
  · exact hvisible
  · exact (written_escape hmark d).isPrintable c hd
  · exact hvisible

def hexValue (c : Char) : Nat := if c.toNat ≤ 57 then c.toNat - 48 else c.toNat - 87

def readHex (cs : List Char) : Nat := cs.foldl (fun n c => 16 * n + hexValue c) 0

@[simp] theorem readHex_hexDigits (width n : Nat) :
    readHex (hexDigits width n) = n % 16 ^ width := by
  have hdigit : ∀ d < 16, hexValue (Nat.digitChar d) = d := by decide
  induction width generalizing n with
  | zero => simp [readHex, hexDigits, Nat.mod_one]
  | succ width ih =>
    have hlast := hdigit (n % 16) (Nat.mod_lt n (by decide))
    have hfirst : (hexDigits width (n / 16)).foldl (fun n c => 16 * n + hexValue c) 0 =
        n / 16 % 16 ^ width := ih (n / 16)
    rw [readHex, hexDigits, List.foldl_append, hfirst, List.foldl_cons, List.foldl_nil, hlast,
      pow_succ', Nat.mod_mul]
    exact Nat.add_comm _ _

/-- Reads one character and gives what is left. -/
def unescape? : List Char → Option (Char × List Char)
  | [] => none
  | c :: rest =>
    if c = '\\' then
      match rest with
      | [] => none
      | sign :: rest =>
        match hexWidth? sign with
        | some width => some (.ofNat (readHex (rest.take width)), rest.drop width)
        | none => some (unescaped sign, rest)
    else some (c, rest)

/-- A character is read back from its written form, whatever follows it. -/
theorem Written.unescape? {mark c : Char} {cs : List Char} (h : Written mark c cs)
    (rest : List Char) : unescape? (cs ++ rest) = some (c, rest) := by
  cases h with
  | plain _ hslash _ => simp [Text.unescape?, hslash]
  | short hwidth hc _ => simp [Text.unescape?, hwidth, hc]
  | @code letter width hwidth hc =>
    have htake : (hexDigits width c.toNat ++ rest).take width = hexDigits width c.toNat :=
      List.take_left' (length_hexDigits width c.toNat)
    have hdrop : (hexDigits width c.toNat ++ rest).drop width = rest :=
      List.drop_left' (length_hexDigits width c.toNat)
    simp only [List.cons_append, Text.unescape?, if_true, hwidth, htake, hdrop, readHex_hexDigits,
      Nat.mod_eq_of_lt hc, Char.ofNat_toNat]

theorem Written.head_ne_mark {mark c : Char} {cs : List Char} (h : Written mark c cs)
    (hmark : mark ∈ quoteMarks) (rest other : List Char) : cs ++ rest ≠ mark :: other := by
  have hslash : '\\' ≠ mark := by
    rintro rfl
    exact absurd hmark (by decide)
  intro heq
  cases h with
  | plain hne _ _ => exact hne (List.cons.inj heq).1
  | short => exact hslash (List.cons.inj heq).1
  | code => exact hslash (List.cons.inj heq).1

theorem escape_append_inj {mark : Char} (hmark : mark ∈ quoteMarks) {c d : Char}
    {rest later : List Char} (h : escape mark c ++ rest = escape mark d ++ later) :
    c = d ∧ rest = later := by
  have hread := (written_escape hmark c).unescape? rest
  rw [h, (written_escape hmark d).unescape? later] at hread
  simpa [eq_comm] using hread

theorem flatMap_escape_append_inj {mark : Char} (hmark : mark ∈ quoteMarks)
    {text other rest later : List Char}
    (h : text.flatMap (escape mark) ++ mark :: rest =
      other.flatMap (escape mark) ++ mark :: later) : text = other ∧ rest = later := by
  induction text generalizing other with
  | nil =>
    cases other with
    | nil => exact ⟨rfl, (List.cons.inj h).2⟩
    | cons d other =>
      rw [List.flatMap_cons, List.append_assoc] at h
      exact absurd h.symm ((written_escape hmark d).head_ne_mark hmark _ _)
  | cons c text ih =>
    rw [List.flatMap_cons, List.append_assoc] at h
    cases other with
    | nil => exact absurd h ((written_escape hmark c).head_ne_mark hmark _ _)
    | cons d other =>
      rw [List.flatMap_cons, List.append_assoc] at h
      obtain ⟨rfl, htail⟩ := escape_append_inj hmark h
      obtain ⟨rfl, hrest⟩ := ih htail
      exact ⟨rfl, hrest⟩

theorem quoteChars_append_inj {text other rest later : List Char}
    (h : quoteChars text ++ rest = quoteChars other ++ later) : text = other ∧ rest = later := by
  simp only [quoteChars, List.cons_append, List.append_assoc, List.nil_append] at h
  obtain ⟨hmark, h⟩ := List.cons.inj h
  rw [hmark] at h
  exact flatMap_escape_append_inj (quoteMark_mem other) h

/-- A text and what follows its quoted form can be told from the two together. -/
theorem quote_append_inj {text other rest later : String}
    (h : quote text ++ rest = quote other ++ later) : text = other ∧ rest = later := by
  have hchars := congrArg String.toList h
  simp only [quote, String.toList_append, String.toList_ofList] at hchars
  obtain ⟨htext, hrest⟩ := quoteChars_append_inj hchars
  exact ⟨String.toList_inj.mp htext, String.toList_inj.mp hrest⟩

theorem quote_injective : Function.Injective quote := by
  intro text other h
  have happend : quote text ++ "" = quote other ++ "" := congrArg (· ++ "") h
  exact (quote_append_inj happend).1

end Reckoner.Text

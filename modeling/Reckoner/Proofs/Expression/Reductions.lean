import Reckoner.Expression.Reduction

/-! Reductions by any symbols, one after the other on the same stack. Whatever fails in between, what
is left is a lower part of the stack that was given, with at most one computed value on it. -/
namespace Reckoner

namespace Operator

theorem named_eq_ok_iff {symbol : String} {op : Operator} :
    named symbol = .ok op ↔ symbol = String.singleton op.symbol := by
  constructor
  · intro h
    have hsymbol : ofSymbol? symbol = some op := by
      unfold named at h
      cases hfound : ofSymbol? symbol with
      | none => simp [hfound] at h
      | some found =>
        rw [hfound] at h
        cases h
        rfl
    unfold ofSymbol? at hsymbol
    split at hsymbol
    · next c hc =>
      rw [symbol_of_ofChar? hsymbol, ← String.toList_inj, hc, String.toList_singleton]
    · cases hsymbol
  · rintro rfl
    cases op <;> rfl

theorem named_eq_error_iff {symbol : String} {e : UnknownOperator} :
    named symbol = .error e ↔
      (∀ op : Operator, symbol ≠ String.singleton op.symbol) ∧ e = ⟨symbol⟩ := by
  have hok (op : Operator) : named symbol = .ok op ↔ symbol = String.singleton op.symbol :=
    named_eq_ok_iff
  cases h : named symbol with
  | ok op =>
    have hsymbol := (hok op).mp h
    simp only [reduceCtorEq, false_iff, not_and]
    exact fun hunknown => absurd hsymbol (hunknown op)
  | error found =>
    have hfound : found = ⟨symbol⟩ := by
      unfold named at h
      split at h <;> cases h
      rfl
    have hunknown (op : Operator) : symbol ≠ String.singleton op.symbol := by
      intro hsymbol
      rw [(hok op).mpr hsymbol] at h
      cases h
    rw [hfound, Except.error.injEq]
    exact ⟨fun he => ⟨hunknown, he.symm⟩, fun he => he.2.symm⟩

theorem apply_eq_none_iff {op : Operator} {a b : Float} :
    op.apply a b = none ↔ op = divide ∧ (b == 0.0) = true := by
  cases op <;> simp [apply]

end Operator

namespace Reduction

/-- What one symbol does to a stack. A value takes the place of the two topmost ones, the upper of
which is the right operand; a stack that is too short stays; the other failures cost both operands.
-/
inductive Effect (symbol : String) : List Float → Reduction → Prop
  | computed {op : Operator} {a b value : Float} {below : List Float}
      (hop : symbol = String.singleton op.symbol) (h : op.apply a b = some value) :
      Effect symbol (b :: a :: below) ⟨value :: below, none⟩
  | tooShort {values : List Float} (h : values.length < 2) :
      Effect symbol values ⟨values, some (.fault (.missingOperand symbol))⟩
  | zeroDivisor {a b : Float} {below : List Float} (hop : symbol = "/") (h : (b == 0.0) = true) :
      Effect symbol (b :: a :: below) ⟨below, some (.fault .divisionByZero)⟩
  | unknown {a b : Float} {below : List Float}
      (h : ∀ op : Operator, symbol ≠ String.singleton op.symbol) :
      Effect symbol (b :: a :: below) ⟨below, some (.unknownOperator ⟨symbol⟩)⟩

theorem effect_bySymbol (symbol : String) (values : List Float) :
    Effect symbol values (bySymbol symbol values) := by
  rcases values with _ | ⟨b, _ | ⟨a, below⟩⟩
  · exact .tooShort (by decide)
  · exact .tooShort (by simp)
  · unfold bySymbol
    dsimp only
    cases hnamed : Operator.named symbol with
    | error e =>
      obtain ⟨hunknown, rfl⟩ := Operator.named_eq_error_iff.mp hnamed
      exact .unknown hunknown
    | ok op =>
      have hsymbol := Operator.named_eq_ok_iff.mp hnamed
      dsimp only
      cases happly : op.apply a b with
      | some value => exact .computed hsymbol happly
      | none =>
        obtain ⟨rfl, hzero⟩ := Operator.apply_eq_none_iff.mp happly
        exact .zeroDivisor hsymbol hzero

/-- The value that a reduction has computed. -/
def computed? (r : Reduction) : Option Float :=
  match r.failure? with
  | none => r.values.head?
  | some _ => none

/-- The stack before the first step and after every step. -/
def history (values : List Float) (symbols : List String) : List (List Float) :=
  values :: (trace values symbols).map Reduction.values

/-- The values are a lower part of the stack `initial`, or one of `results` on such a part. -/
def Framed (initial results values : List Float) : Prop :=
  ∃ top below, values = top ++ below ∧ below <:+ initial ∧ top.length ≤ 1 ∧ top ⊆ results

variable {initial results values : List Float}

/-- Below the two topmost values nothing has been computed. -/
theorem Framed.below {a b : Float} {rest : List Float}
    (h : Framed initial results (b :: a :: rest)) : rest <:+ initial := by
  obtain ⟨top, below, hvalues, hbelow, hlength, -⟩ := h
  rcases top with _ | ⟨v, _ | ⟨w, top⟩⟩
  · rw [List.nil_append] at hvalues
    have hrest : rest <:+ b :: a :: rest := ⟨[b, a], rfl⟩
    exact hrest.trans (hvalues ▸ hbelow)
  · obtain ⟨-, rfl⟩ := List.cons.inj hvalues
    exact (List.suffix_cons a rest).trans hbelow
  · simp at hlength

theorem Framed.effect {symbol : String} {r : Reduction} (h : Framed initial results values)
    (he : Effect symbol values r) :
    Framed initial (results ++ r.computed?.toList) r.values := by
  cases he with
  | @computed op a b value below hop happly =>
    exact ⟨[value], below, rfl, h.below, by simp, by simp [computed?]⟩
  | tooShort hlength =>
    obtain ⟨top, below, hvalues, hbelow, htop, hsubset⟩ := h
    exact ⟨top, below, hvalues, hbelow, htop, List.subset_append_of_subset_left _ hsubset⟩
  | zeroDivisor hop hzero => exact ⟨[], _, rfl, h.below, by simp, by simp⟩
  | unknown hunknown => exact ⟨[], _, rfl, h.below, by simp, by simp⟩

@[simp] theorem length_trace (values : List Float) (symbols : List String) :
    (trace values symbols).length = symbols.length := by
  induction symbols generalizing values with
  | nil => rfl
  | cons symbol rest ih => simp only [trace, List.length_cons, ih]

/-- A step works on what the step before it has left, and keeps the frame. -/
theorem Framed.trace (h : Framed initial results values) {symbols : List String} {i : Nat}
    {symbol : String} (hi : symbols[i]? = some symbol) :
    ∃ before r, (history values symbols)[i]? = some before ∧
      (Reduction.trace values symbols)[i]? = some r ∧ Effect symbol before r ∧
      Framed initial
        (results ++ ((Reduction.trace values symbols).take (i + 1)).filterMap computed?)
        r.values := by
  induction symbols generalizing values results i with
  | nil => cases hi
  | cons first rest ih =>
    have hfirst : Effect first values (bySymbol first values) := effect_bySymbol first values
    have hframed := h.effect hfirst
    have hcomputed : ∀ later : List Reduction,
        results ++ (bySymbol first values :: later).filterMap computed? =
          (results ++ (bySymbol first values).computed?.toList) ++ later.filterMap computed? := by
      intro later
      cases hc : (bySymbol first values).computed? <;> simp [hc]
    simp only [Reduction.trace, List.take_succ_cons, hcomputed]
    cases i with
    | zero =>
      obtain rfl : first = symbol := by simpa using hi
      exact ⟨values, _, rfl, rfl, hfirst, by simpa using hframed⟩
    | succ i => exact ih hframed hi

theorem Effect.lengths {symbol : String} {before : List Float} {r : Reduction}
    (h : Effect symbol before r) :
    (r.failure? = none ↔ r.values.length + 1 = before.length) ∧
    (before.length < 2 ↔ r.values.length = before.length) ∧
    (r.failure? = some (.fault .divisionByZero) ∨
      r.failure? = some (.unknownOperator ⟨symbol⟩) ↔ r.values.length + 2 = before.length) := by
  cases h with
  | computed hop happly => simp
  | tooShort hlength => simp [hlength]
  | zeroDivisor hop hzero => simpa using by omega
  | unknown hunknown => simpa using by omega

theorem Effect.of_short {symbol : String} {before : List Float} {r : Reduction}
    (h : Effect symbol before r) (hlength : before.length < 2) :
    r.values = before ∧
      ∃ fault, r.failure? = some (.fault fault) ∧ fault.kind = .malformedExpression := by
  cases h with
  | tooShort => exact ⟨rfl, _, rfl, rfl⟩
  | _ =>
    simp only [List.length_cons] at hlength
    omega

/-- However often reducing fails, the stack stays a lower part of the first one with at most one
computed value on top. A step works on the stack that the step before it has left, and its effect
shows in how much shorter the stack is afterwards. -/
theorem frame_of_trace (initial : List Float) (symbols : List String) :
    (trace initial symbols).length = symbols.length ∧
    ∀ i symbol, symbols[i]? = some symbol → ∃ before r,
      (history initial symbols)[i]? = some before ∧ (trace initial symbols)[i]? = some r ∧
      Framed initial (((trace initial symbols).take (i + 1)).filterMap computed?) r.values ∧
      Effect symbol before r ∧
      (r.failure? = none ↔ r.values.length + 1 = before.length) ∧
      (before.length < 2 ↔ r.values.length = before.length) ∧
      (r.failure? = some (.fault .divisionByZero) ∨
        r.failure? = some (.unknownOperator ⟨symbol⟩) ↔ r.values.length + 2 = before.length) ∧
      (before.length < 2 → r.values = before ∧
        ∃ fault, r.failure? = some (.fault fault) ∧ fault.kind = .malformedExpression) := by
  refine ⟨length_trace initial symbols, ?_⟩
  intro i symbol hi
  have hinitial : Framed initial [] initial := ⟨[], initial, rfl, List.suffix_rfl, by simp, by simp⟩
  obtain ⟨before, r, hbefore, hr, heffect, hframed⟩ := hinitial.trace hi
  rw [List.nil_append] at hframed
  obtain ⟨hone, hnone, htwo⟩ := heffect.lengths
  exact ⟨before, r, hbefore, hr, hframed, heffect, hone, hnone, htwo, heffect.of_short⟩

/-- After a product and an unknown symbol, which costs the product, the last two values meet in a
division by zero. -/
theorem frame_of_trace_zero_divisor :
    ["*", "%", "/", "+"][2]? = some "/" ∧
      (history [2, 3, 7, 0, 1] ["*", "%", "/", "+"])[2]? = some [0, 1] ∧
      Effect "/" [0, 1] ⟨[], some (.fault .divisionByZero)⟩ ∧
      Framed [2, 3, 7, 0, 1] [3 * 2] [] := by
  have hsymbol : ["*", "%", "/", "+"][2]? = some "/" := rfl
  obtain ⟨before, r, hbefore, hr, hframed, heffect, -⟩ :=
    (frame_of_trace [2, 3, 7, 0, 1] ["*", "%", "/", "+"]).2 2 "/" hsymbol
  have hstack : (history [2, 3, 7, 0, 1] ["*", "%", "/", "+"])[2]? = some [0, 1] := rfl
  have hstep : (trace [2, 3, 7, 0, 1] ["*", "%", "/", "+"])[2]? =
      some ⟨[], some (.fault .divisionByZero)⟩ := rfl
  obtain rfl : [0, 1] = before := Option.some.inj (hstack.symm.trans hbefore)
  obtain rfl : ⟨[], some (.fault .divisionByZero)⟩ = r := Option.some.inj (hstep.symm.trans hr)
  exact ⟨hsymbol, hstack, heffect, hframed⟩

end Reduction

end Reckoner

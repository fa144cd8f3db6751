import Reckoner.Log.Evaluation
import Reckoner.Proofs.Expression.Spelling

/-! The evaluator on the texts of tokens. Its stack of operators holds texts, which are looked up
when they are needed, and whatever is taken from a list may not be there. On the texts of an
expression it does what the evaluator does, so that none of these steps ever fails. -/
namespace Reckoner.Textual

/-- An error of the evaluation, or a step that cannot be taken: an operator that is not known, an
empty list, a literal that is no run of digits. -/
inductive Exception where
  | evaluation (e : EvaluationError)
  | unknownOperator (e : UnknownOperator)
  | nothingToTake
  | unreadable (literal : String)
  deriving DecidableEq, Repr

def raise {α : Type} (expression : String) (fault : Fault) : Except Exception α :=
  .error (.evaluation (fault.error expression))

def peek {α : Type} : List α → Except Exception α
  | [] => .error .nothingToTake
  | x :: _ => .ok x

/-- The first element, and the rest, which is shorter. -/
def take {α : Type} :
    (xs : List α) → Except Exception (α × { rest : List α // rest.length < xs.length })
  | [] => .error .nothingToTake
  | x :: rest => .ok (x, ⟨rest, Nat.lt_succ_self _⟩)

def lookUp (symbol : String) : Except Exception Operator :=
  (Operator.named symbol).mapError .unknownOperator

def topActsBefore (top incoming : String) : Except Exception Bool :=
  (Operator.topActsBefore top incoming).mapError .unknownOperator

def readLiteral (literal : String) : Except Exception Float :=
  if literal ≠ "" ∧ literal.toList.all Text.isDigit = true then
    .ok (Number.ofLiteral literal.toList)
  else .error (.unreadable literal)

/-- The right operand lies on top. -/
def reduce (expression symbol : String) (values : List Float) : Except Exception (List Float) :=
  if values.length < 2 then raise expression (.missingOperand symbol)
  else do
    let (b, ⟨values, _⟩) ← take values
    let (a, ⟨values, _⟩) ← take values
    let op ← lookUp symbol
    match op.apply a b with
    | some value => return value :: values
    | none => raise expression .divisionByZero

/-- Both stacks have their top first. -/
structure Stacks where
  values : List Float
  operators : List String

def settle (expression incoming : String) (values : List Float) (operators : List String) :
    Except Exception Stacks :=
  if operators = [] then return ⟨values, operators⟩
  else do
    let top ← peek operators
    if ← topActsBefore top incoming then
      let (op, ⟨rest, _⟩) ← take operators
      let values ← reduce expression op values
      settle expression incoming values rest
    else return ⟨values, operators⟩
termination_by operators.length

def closeGroup (expression : String) (values : List Float) (operators : List String) :
    Except Exception Stacks :=
  if operators = [] then raise expression .closingWithoutOpening
  else do
    let (op, ⟨rest, _⟩) ← take operators
    if op = "(" then return ⟨values, rest⟩
    else
      let values ← reduce expression op values
      closeGroup expression values rest
termination_by operators.length

def drain (expression : String) (values : List Float) (operators : List String) :
    Except Exception (List Float) :=
  if operators = [] then return values
  else do
    let (op, ⟨rest, _⟩) ← take operators
    let values ← reduce expression op values
    drain expression values rest
termination_by operators.length

/-- The first character tells a literal; every other token is known by its text. -/
def step (expression : String) (s : Stacks) (token : String) : Except Exception Stacks := do
  let first ← peek token.toList
  if Text.isDigit first then
    let value ← readLiteral token
    return { s with values := value :: s.values }
  else if token = "(" then return { s with operators := token :: s.operators }
  else if token = ")" then closeGroup expression s.values s.operators
  else
    let settled ← settle expression token s.values s.operators
    return { settled with operators := token :: settled.operators }

def run (expression : String) (s : Stacks) : List String → Except Exception Stacks
  | [] => .ok s
  | token :: rest => do
    let next ← step expression s token
    run expression next rest

def finish (expression : String) (s : Stacks) : Except Exception Float :=
  if "(" ∈ s.operators then raise expression .openingNeverClosed
  else do
    let values ← drain expression s.values s.operators
    if values.length ≠ 1 then
      raise expression (if values.isEmpty then .empty else .operandsLeft)
    else peek values

def compute (expression : String) : Except Exception Float := do
  let scan := Scan.ofString expression
  let s ← run expression ⟨[], []⟩ (scan.tokens.map Token.text)
  match scan.stray? with
  | some (c, position) => raise expression (.strayCharacter c position)
  | none => finish expression s

/-- Errors of the evaluation are reported, every other exception goes on. -/
def evaluate (expression : String) : Except Exception Outcome :=
  match compute expression with
  | .ok value => .ok (.success ⟨expression, value⟩)
  | .error (.evaluation e) => .ok (.failure ⟨expression, e.kind, e.detail⟩)
  | .error other => .error other

section Simulation

variable (expression : String)

/-- What is found wrong is raised as an error of the evaluation. -/
def raising {α β : Type} (f : α → β) (x : Except Fault α) : Except Exception β :=
  (x.map f).mapError fun fault => .evaluation (fault.error expression)

theorem raising_bind {α β γ δ : Type} {f : α → β} {g : γ → δ} {x : Except Fault α}
    {next : α → Except Fault γ} {textual : β → Except Exception δ}
    (h : ∀ a, textual (f a) = raising expression g (next a)) :
    raising expression f x >>= textual = raising expression g (x >>= next) := by
  cases x with
  | error fault => rfl
  | ok a => exact h a

def waitingText : Waiting → String
  | .opening => "("
  | .operator op => String.singleton op.symbol

def Stacks.ofMachine (m : Machine) : Stacks := ⟨m.values, m.waiting.map waitingText⟩

theorem symbol_ne_opening (op : Operator) : String.singleton op.symbol ≠ "(" := by
  cases op <;> decide

theorem symbol_ne_closing (op : Operator) : String.singleton op.symbol ≠ ")" := by
  cases op <;> decide

@[simp] theorem topActsBefore_symbol (top incoming : Operator) :
    topActsBefore (String.singleton top.symbol) (String.singleton incoming.symbol) =
      .ok (top.actsBefore incoming) := by
  cases top <;> cases incoming <;> rfl

@[simp] theorem reduce_symbol (op : Operator) (values : List Float) :
    reduce expression (String.singleton op.symbol) values =
      raising expression id (op.reduce values) := by
  rcases values with _ | ⟨b, _ | ⟨a, rest⟩⟩
  · rfl
  · rfl
  · have hlookUp : lookUp (String.singleton op.symbol) = .ok op := by
      cases op <;> rfl
    have hlength : ¬(b :: a :: rest).length < 2 := by
      simp
    unfold reduce Operator.reduce
    rw [if_neg hlength]
    change (lookUp (String.singleton op.symbol) >>= fun op => _) = _
    rw [hlookUp]
    dsimp only [bind, Except.bind]
    cases op.apply a b <;> rfl

theorem settle_text (incoming : Operator) (values : List Float) (waiting : List Waiting) :
    settle expression (String.singleton incoming.symbol) values (waiting.map waitingText) =
      raising expression Stacks.ofMachine (Machine.settle incoming values waiting) := by
  induction waiting generalizing values with
  | nil =>
    rw [settle]
    rfl
  | cons w rest ih =>
    rw [settle, if_neg (by simp)]
    cases w with
    | opening => rfl
    | operator op =>
      change (topActsBefore (String.singleton op.symbol) (String.singleton incoming.symbol) >>=
        fun acts => _) = _
      rw [topActsBefore_symbol, Machine.settle]
      cases op.actsBefore incoming with
      | false => rfl
      | true =>
        change (reduce expression (String.singleton op.symbol) values >>= fun values => _) = _
        rw [reduce_symbol]
        exact raising_bind expression ih

theorem closeGroup_text (values : List Float) (waiting : List Waiting) :
    closeGroup expression values (waiting.map waitingText) =
      raising expression Stacks.ofMachine (Machine.closeGroup values waiting) := by
  induction waiting generalizing values with
  | nil =>
    rw [closeGroup]
    rfl
  | cons w rest ih =>
    rw [closeGroup, if_neg (by simp)]
    cases w with
    | opening => rfl
    | operator op =>
      change (if String.singleton op.symbol = "(" then _ else
        reduce expression (String.singleton op.symbol) values >>= fun values => _) = _
      rw [if_neg (symbol_ne_opening op), reduce_symbol]
      exact raising_bind expression ih

/-- Once no parenthesis waits, all that waits acts. -/
theorem drain_text (values : List Float) {waiting : List Waiting}
    (h : waiting.contains .opening = false) :
    drain expression values (waiting.map waitingText) =
      raising expression id (Machine.drain values waiting) := by
  induction waiting generalizing values with
  | nil =>
    rw [drain]
    rfl
  | cons w rest ih =>
    rw [drain, if_neg (by simp)]
    cases w with
    | opening => simp at h
    | operator op =>
      have hrest : rest.contains .opening = false := by simpa using h
      change (reduce expression (String.singleton op.symbol) values >>= fun values => _) = _
      rw [reduce_symbol]
      exact raising_bind expression fun values => ih values hrest

theorem readLiteral_text {digits : List Char} (h : (Token.number digits).Proper) :
    readLiteral (Token.number digits).text = .ok (Number.ofLiteral digits) := by
  obtain ⟨hne, hdigit⟩ := h
  have hchars : (Token.number digits).text.toList = digits := String.toList_ofList
  have hnonempty : (Token.number digits).text ≠ "" := by
    intro hempty
    rw [hempty] at hchars
    exact hne hchars.symm
  unfold readLiteral
  rw [hchars, if_pos ⟨hnonempty, List.all_eq_true.mpr hdigit⟩]

theorem step_text (m : Machine) {t : Token} (h : t.Proper) :
    step expression (Stacks.ofMachine m) t.text =
      raising expression Stacks.ofMachine (m.step t) := by
  cases t with
  | number digits =>
    obtain ⟨c, rest, rfl⟩ := List.exists_cons_of_ne_nil h.1
    have hchars : (Token.number (c :: rest)).text.toList = c :: rest := String.toList_ofList
    unfold step
    rw [hchars]
    change (if Text.isDigit c = true then
      readLiteral (Token.number (c :: rest)).text >>= fun value => _ else _) = _
    rw [if_pos (h.2 c (by simp)), readLiteral_text h]
    rfl
  | operator op =>
    have hdigit : Text.isDigit op.symbol = false := by
      cases op <;> rfl
    have hchars : (Token.operator op).text.toList = [op.symbol] := String.toList_ofList
    have htext : (Token.operator op).text = String.singleton op.symbol := by
      cases op <;> rfl
    unfold step
    rw [hchars]
    change (if Text.isDigit op.symbol = true then _ else _) = _
    rw [if_neg (by simp [hdigit]), htext, if_neg (symbol_ne_opening op),
      if_neg (symbol_ne_closing op), Stacks.ofMachine, settle_text]
    exact raising_bind expression fun settled => rfl
  | opening => rfl
  | closing => exact closeGroup_text expression m.values m.waiting

theorem run_text (m : Machine) {ts : List Token} (h : ∀ t ∈ ts, t.Proper) :
    run expression (Stacks.ofMachine m) (ts.map Token.text) =
      raising expression Stacks.ofMachine (m.run ts) := by
  induction ts generalizing m with
  | nil => rfl
  | cons t rest ih =>
    have hstep := step_text expression m (h t (by simp))
    change (step expression (Stacks.ofMachine m) t.text >>= fun next =>
      run expression next (rest.map Token.text)) = _
    rw [hstep]
    exact raising_bind expression fun next => ih next fun u hu => h u (List.mem_cons_of_mem t hu)

theorem opening_mem_stacks_iff (m : Machine) :
    "(" ∈ (Stacks.ofMachine m).operators ↔ m.waiting.contains .opening = true := by
  change "(" ∈ m.waiting.map waitingText ↔ _
  rw [List.mem_map, List.contains_iff_mem]
  constructor
  · rintro ⟨w, hw, htext⟩
    cases w with
    | opening => exact hw
    | operator op => exact absurd htext (symbol_ne_opening op)
  · intro hw
    exact ⟨.opening, hw, rfl⟩

theorem finish_text (m : Machine) :
    finish expression (Stacks.ofMachine m) = raising expression id m.finish := by
  have hmem := opening_mem_stacks_iff m
  unfold finish Machine.finish
  cases hopen : m.waiting.contains .opening with
  | true =>
    rw [if_pos (hmem.mpr hopen)]
    rfl
  | false =>
    rw [if_neg (by rw [hmem, hopen]; exact Bool.false_ne_true), Stacks.ofMachine,
      drain_text expression m.values hopen]
    refine raising_bind expression fun values => ?_
    rcases values with _ | ⟨value, _ | ⟨other, rest⟩⟩ <;> rfl

/-- The evaluator on texts does what the evaluator does. -/
theorem compute_text :
    compute expression = raising expression id (Reckoner.compute expression) := by
  have hproper : ∀ t ∈ (Scan.ofString expression).tokens, t.Proper :=
    Scan.proper_ofChars 0 expression.toList
  have hrun := run_text expression Machine.start hproper
  unfold compute Reckoner.compute Scan.value Scan.machine
  rw [bind_assoc]
  change (run expression (Stacks.ofMachine Machine.start) _ >>= fun s => _) = _
  rw [hrun]
  refine raising_bind expression fun m => ?_
  cases (Scan.ofString expression).stray? with
  | none => exact finish_text expression m
  | some stray => rfl

theorem evaluate_text : evaluate expression = .ok (Outcome.ofExpression expression) := by
  unfold evaluate Outcome.ofExpression
  rw [compute_text]
  cases Reckoner.compute expression <;> rfl

end Simulation

/-- Evaluating raises nothing but errors of the evaluation. They carry the whole expression, and a
place exactly if a character is to blame, and the outcome reports them with their kind and detail.
-/
theorem compute_raises_evaluation_only (expression : String) :
    compute expression =
      (Reckoner.compute expression).mapError (fun fault => .evaluation (fault.error expression)) ∧
    ((∃ value, compute expression = .ok value) ∨
      ∃ e : EvaluationError, compute expression = .error (.evaluation e) ∧
        e.expression = expression ∧ (e.position.isSome = true ↔ e.kind = .invalidCharacter)) ∧
    ∃ outcome, evaluate expression = .ok outcome ∧ (Log.evaluate expression).result = outcome ∧
      (∀ value, outcome = .success ⟨expression, value⟩ ↔ compute expression = .ok value) ∧
      ∀ kind detail, outcome = .failure ⟨expression, kind, detail⟩ ↔
        ∃ e : EvaluationError, compute expression = .error (.evaluation e) ∧
          e.kind = kind ∧ e.detail = detail := by
  have hlogged := Log.result_evaluate expression
  have hevaluate := evaluate_text expression
  have hcompute := compute_text expression
  unfold Outcome.ofExpression at hevaluate hlogged
  cases h : Reckoner.compute expression with
  | ok value =>
    rw [h] at hcompute hevaluate hlogged
    have hvalue : compute expression = .ok value := hcompute
    refine ⟨hvalue, .inl ⟨value, hvalue⟩, _, hevaluate, hlogged, ?_, ?_⟩
    · intro other
      simp [hvalue]
    · intro kind detail
      simp [hvalue]
  | error fault =>
    rw [h] at hcompute hevaluate hlogged
    have herror : compute expression = .error (.evaluation (fault.error expression)) := hcompute
    refine ⟨herror, .inr ⟨fault.error expression, herror, rfl, ?_⟩, _, hevaluate, hlogged, ?_, ?_⟩
    · simpa [Fault.error] using fault.isSome_position?_iff
    · intro other
      simp [herror]
    · intro kind detail
      simp [herror, Fault.error]

end Reckoner.Textual

import Reckoner.Proofs.Expression.Joining
import Reckoner.Proofs.Expression.ShiftReduce

/-! A text with a value may stand in parentheses anywhere. Its run takes place above the opening
parenthesis as it would on empty stacks, and leaves its value behind. -/
namespace Reckoner

theorem Operator.reduce_append {op : Operator} {values reduced : List Float}
    (h : op.reduce values = .ok reduced) (below : List Float) :
    op.reduce (values ++ below) = .ok (reduced ++ below) := by
  rcases values with _ | ⟨b, _ | ⟨a, rest⟩⟩
  · cases h
  · cases h
  · simp only [reduce, List.cons_append] at h ⊢
    cases happly : op.apply a b with
    | none =>
      rw [happly] at h
      cases h
    | some value =>
      rw [happly] at h
      cases h
      rfl

namespace Machine

/-- The stacks of `m` on those of `outer`, parted by an opening parenthesis. -/
def within (m outer : Machine) : Machine :=
  ⟨m.values ++ outer.values, m.waiting ++ .opening :: outer.waiting⟩

variable {m next : Machine}

theorem settle_within {incoming : Operator} {values : List Float} {waiting : List Waiting}
    (h : settle incoming values waiting = .ok next) (outer : Machine) :
    settle incoming (values ++ outer.values) (waiting ++ .opening :: outer.waiting) =
      .ok (next.within outer) := by
  induction waiting generalizing values with
  | nil =>
    cases h
    rfl
  | cons w rest ih =>
    cases w with
    | opening =>
      cases h
      rfl
    | operator op =>
      simp only [settle, List.cons_append] at h ⊢
      split at h
      · next hacts =>
        obtain ⟨reduced, hr, h⟩ := bind_eq_ok h
        rw [if_pos hacts, Operator.reduce_append hr]
        exact ih h
      · next hacts =>
        cases h
        rw [if_neg hacts]
        rfl

theorem closeGroup_within {values : List Float} {waiting : List Waiting}
    (h : closeGroup values waiting = .ok next) (outer : Machine) :
    closeGroup (values ++ outer.values) (waiting ++ .opening :: outer.waiting) =
      .ok (next.within outer) := by
  induction waiting generalizing values with
  | nil => cases h
  | cons w rest ih =>
    cases w with
    | opening =>
      cases h
      rfl
    | operator op =>
      obtain ⟨reduced, hr, h⟩ := bind_eq_ok h
      rw [List.cons_append, closeGroup, Operator.reduce_append hr]
      exact ih h

/-- The parenthesis that closes a group does what the end of the text would have done. -/
theorem closeGroup_of_drain {values drained : List Float} {waiting : List Waiting}
    (h : drain values waiting = .ok drained) (outer : Machine) :
    closeGroup (values ++ outer.values) (waiting ++ .opening :: outer.waiting) =
      .ok ⟨drained ++ outer.values, outer.waiting⟩ := by
  induction waiting generalizing values with
  | nil =>
    cases h
    rfl
  | cons w rest ih =>
    cases w with
    | opening => cases h
    | operator op =>
      obtain ⟨reduced, hr, h⟩ := bind_eq_ok h
      rw [List.cons_append, closeGroup, Operator.reduce_append hr]
      exact ih h

theorem step_within {t : Token} (h : m.step t = .ok next) (outer : Machine) :
    (m.within outer).step t = .ok (next.within outer) := by
  cases t with
  | number digits =>
    cases h
    rfl
  | opening =>
    cases h
    rfl
  | closing => exact closeGroup_within h outer
  | operator op =>
    obtain ⟨settled, hs, h⟩ := bind_eq_ok h
    cases h
    have hsettle : settle op (m.within outer).values (m.within outer).waiting =
        .ok (settled.within outer) := settle_within hs outer
    rw [step, hsettle]
    rfl

theorem run_within {ts : List Token} (h : m.run ts = .ok next) (outer : Machine) :
    (m.within outer).run ts = .ok (next.within outer) := by
  induction ts generalizing m with
  | nil =>
    cases h
    rfl
  | cons t rest ih =>
    obtain ⟨after, hstep, hrest⟩ := bind_eq_ok h
    rw [run, step_within hstep outer]
    exact ih hrest

end Machine

namespace Scan

/-- A group pushes the value of what it holds and changes nothing else. -/
theorem machineFrom_group {inside : List Char} {value : Float} (position : Nat)
    (h : (ofChars position inside).value = .ok value) (m : Machine) (p : Nat)
    (after : List Char) :
    (ofChars p ('(' :: (inside ++ ')' :: after))).machineFrom m =
      (ofChars (p + inside.length + 2) after).machineFrom ⟨value :: m.values, m.waiting⟩ := by
  obtain ⟨final, hmachine, hfinish⟩ := Machine.bind_eq_ok h
  obtain ⟨hrun, hstray⟩ := machineFrom_eq_ok_iff.mp hmachine
  have hscan : ofChars (p + 1) inside = ofChars position inside :=
    ofChars_eq_of_stray?_eq_none hstray (p + 1)
  have hinside : (ofChars (p + 1) inside).machineFrom (Machine.start.within m) =
      .ok (final.within m) := by
    rw [hscan, machineFrom_of_stray?_eq_none hstray]
    exact Machine.run_within hrun m
  have hclose : (final.within m).step .closing = .ok ⟨value :: m.values, m.waiting⟩ :=
    Machine.closeGroup_of_drain (Machine.drain_of_finish hfinish) m
  have hseam : Text.digitsMeet inside (')' :: after) = false := Text.digitsMeet_cons rfl _ _
  have hopening (cs : List Char) : ofChars p ('(' :: cs) = cons .opening (ofChars (p + 1) cs) :=
    rfl
  have hclosing (q : Nat) (cs : List Char) :
      ofChars q (')' :: cs) = cons .closing (ofChars (q + 1) cs) := rfl
  have hposition : p + 1 + inside.length + 1 = p + inside.length + 2 := by omega
  rw [hopening, machineFrom_cons, ofChars_append hseam, hclosing, hposition]
  change machineFrom (Machine.start.within m) _ = _
  rw [machineFrom_append, hinside]
  change machineFrom (final.within m) _ = _
  rw [machineFrom_cons, hclose]
  rfl

/-- The machine takes a group for a literal of its value. -/
theorem machineFrom_append_group {inside : List Char} {value : Float} {position : Nat}
    (h : (ofChars position inside).value = .ok value) (start : Machine) (p : Nat)
    (before after : List Char) :
    (ofChars p (before ++ '(' :: (inside ++ ')' :: after))).machineFrom start =
      (ofChars p before).machineFrom start >>= fun m =>
        (ofChars (p + before.length + inside.length + 2) after).machineFrom
          ⟨value :: m.values, m.waiting⟩ := by
  have hseam : Text.digitsMeet before ('(' :: (inside ++ ')' :: after)) = false :=
    Text.digitsMeet_cons rfl _ _
  rw [ofChars_append hseam, machineFrom_append]
  exact bind_congr fun m => machineFrom_group position h m _ after

theorem value_parentheses {inside : List Char} {value : Float}
    (h : (ofChars 0 inside).value = .ok value) (n : Nat) :
    (ofChars 0 (List.replicate n '(' ++ inside ++ List.replicate n ')')).value = .ok value := by
  induction n with
  | zero => simpa using h
  | succ n ih =>
    have hchars : List.replicate (n + 1) '(' ++ inside ++ List.replicate (n + 1) ')' =
        '(' :: ((List.replicate n '(' ++ inside ++ List.replicate n ')') ++ [')']) := by
      rw [List.replicate_succ, List.replicate_succ']
      simp only [List.cons_append, List.append_assoc]
    rw [hchars]
    change machineFrom .start _ >>= Machine.finish = _
    rw [machineFrom_group 0 ih .start 0 []]
    rfl

end Scan

/-- A group that holds a text with a value pushes this value, whatever comes before it, and what
comes after it goes on from there. Parentheses around the whole text make no difference. -/
theorem group_in_context {inside : String} {value : Float} (hvalue : compute inside = .ok value)
    {before : String} {m : Machine} (hbefore : (Scan.ofString before).machine = .ok m) :
    let read := before ++ "(" ++ inside ++ ")"
    (Scan.ofString read).machine = .ok ⟨value :: m.values, m.waiting⟩ ∧
    (∀ after : String, compute (read ++ after) =
      (Scan.ofChars read.length after.toList).valueFrom ⟨value :: m.values, m.waiting⟩) ∧
    ∀ n, compute (String.ofList (List.replicate n '(') ++ inside ++
      String.ofList (List.replicate n ')')) = .ok value := by
  intro read
  have hread (after : String) : (Scan.ofString (read ++ after)).machine =
      (Scan.ofChars read.length after.toList).machineFrom ⟨value :: m.values, m.waiting⟩ := by
    have hchars : (read ++ after).toList =
        before.toList ++ '(' :: (inside.toList ++ ')' :: after.toList) := by
      simp [read]
    have hlength : read.length = 0 + before.toList.length + inside.toList.length + 2 := by
      have hopening : "(".length = 1 := rfl
      have hclosing : ")".length = 1 := rfl
      simp only [read, String.length_append, String.length_toList]
      omega
    rw [Scan.ofString, hchars, hlength]
    change Scan.machineFrom .start _ = _
    rw [Scan.machineFrom_append_group hvalue]
    change (Scan.ofString before).machine >>= _ = _
    rw [hbefore]
    rfl
  refine ⟨?_, ?_, ?_⟩
  · have hnothing := hread ""
    rw [String.append_empty] at hnothing
    exact hnothing
  · intro after
    rw [compute, Scan.value, hread]
    rfl
  · intro n
    rw [compute, Scan.ofString, String.toList_append, String.toList_append, String.toList_ofList,
      String.toList_ofList]
    exact Scan.value_parentheses hvalue n

/-- The group holds a text outside the infix grammar and stands where two operators and another
group are still open. -/
theorem group_in_context_postfix :
    compute "1 2+" = .ok 3 ∧
      (Scan.ofString "7-(2*").machine =
        .ok ⟨[2, 7], [.operator .multiply, .opening, .operator .subtract]⟩ ∧
      (Scan.ofString ("7-(2*" ++ "(" ++ "1 2+" ++ ")")).machine =
        .ok ⟨[3, 2, 7], [.operator .multiply, .opening, .operator .subtract]⟩ ∧
      compute ("7-(2*" ++ "(" ++ "1 2+" ++ ")" ++ ")") = .ok 1 := by
  have hinside : compute "1 2+" = .ok 3 := by decide +kernel
  have hbefore : (Scan.ofString "7-(2*").machine =
      .ok ⟨[2, 7], [.operator .multiply, .opening, .operator .subtract]⟩ := rfl
  obtain ⟨hread, hafter, -⟩ := group_in_context hinside hbefore
  refine ⟨hinside, hbefore, hread, ?_⟩
  rw [hafter ")"]
  decide +kernel

end Reckoner

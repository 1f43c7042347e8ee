import Forth.Proofs.Lockstep

/-!
# Items deep on the stack

A line works at the top of the stack. If it never misses an operand, it does not notice what else
lies below: with more items under the stack it does the same, ends in the same way, and leaves
them where they were (`Interpreter.evalLine_onTopOf`). The one word that looks further down is `.s`,
which reports the whole stack, so what it reports is left out of the comparison.

A missing operand is where the comparison has to end, for with more items it is not missing. Any
other fault arises in both executions alike, a division by zero with its operands gone in both.
-/

namespace Forth

/-- The fault is that there are not enough items on the stack. -/
def Fault.IsShortage : Fault → Prop
  | emptyStack | tooFewItems .. => True
  | _ => False

/-- Values that are equal, or both a text. -/
inductive Value.SameButText : Option Value → Option Value → Prop where
  | same (v : Option Value) : SameButText v v
  | texts (a b : String) : SameButText (some (.text a)) (some (.text b))

/-- Outcomes that are equal, or both report a text. -/
inductive Outcome.SameButText : Outcome → Outcome → Prop where
  | same (outcome : Outcome) : SameButText outcome outcome
  | texts (a b : String) :
      SameButText (.completed (some (.text a))) (.completed (some (.text b)))

theorem Outcome.SameButText.eq_failed {fault : Fault} {outcome : Outcome}
    (same : SameButText (.failed fault) outcome) : outcome = .failed fault := by
  cases same
  rfl

/-- The same state, with more items under its stack. -/
def State.onTopOf (s : State) (below : List Int64) : State :=
  { s with ints := .ofList (s.ints.toList ++ below) }

/-- The same session, with more items under its stack. -/
def Interpreter.onTopOf (i : Interpreter) (below : List Int64) : Interpreter :=
  { i with state := i.state.onTopOf below }

/-- The second state has more items under its stack and may report another text. -/
structure State.Above (below : List Int64) (s s' : State) : Prop where
  ints : s'.ints.toList = s.ints.toList ++ below
  floats : s'.floats = s.floats
  status : s'.status = s.status
  value : Value.SameButText s.value s'.value

namespace State.Above

variable {below : List Int64} {s s' : State}

theorem onTopOf (below : List Int64) (s : State) : Above below s (s.onTopOf below) :=
  ⟨rfl, rfl, rfl, .same s.value⟩

/-- Once their values are forgotten, only the stacks differ. -/
theorem clearValue (above : Above below s s') :
    { s' with value := none } = ({ s with value := none } : State).onTopOf below := by
  obtain ⟨ints, floats, status, -⟩ := above
  have stack : s'.ints = .ofList (s.ints.toList ++ below) := Stack.ext ints
  rw [stack, floats, status]
  rfl

end State.Above

namespace Comparison

/-- The second execution has more items under its stack. -/
def withBelow (below : List Int64) : Comparison where
  Related := State.Above below
  Excused := Fault.IsShortage

theorem lawful_withBelow (below : List Int64) : (withBelow below).Lawful where
  isShutdown := by
    intro s s' above
    rw [State.isShutdown, State.isShutdown, above.status]
  size := by
    intro s s' above
    refine .inr ⟨?_, fun _ => trivial⟩
    rw [s.ints.size_eq, s'.ints.size_eq, above.ints, List.length_append]
    exact Nat.le_add_right _ _
  pop := by
    intro s s' above
    cases items : s.ints.toList with
    | nil =>
      rw [Action.pop_of_nil items]
      exact .excused trivial s _
    | cons n rest =>
      have items' : s'.ints.toList = n :: (rest ++ below) := by
        rw [above.ints, items, List.cons_append]
      rw [Action.pop_of_cons items, Action.pop_of_cons items']
      exact .ok n ⟨rfl, above.floats, above.status, above.value⟩
  push n := by
    intro s s' above
    refine .ok () ⟨?_, above.floats, above.status, above.value⟩
    rw [State.ints_push, State.ints_push, Stack.toList_push, Stack.toList_push, above.ints,
      List.cons_append]
  report n := by
    intro s s' above
    exact .ok () ⟨above.ints, above.floats, above.status, .same _⟩
  summary := by
    intro s s' above
    exact .ok () ⟨above.ints, above.floats, above.status, .texts _ _⟩
  shutdown := by
    intro s s' above
    exact .ok () ⟨above.ints, above.floats, rfl, above.value⟩

theorem SameEnd.sameButText {below : List Int64} {s s' : State} {outcome outcome' : Outcome}
    (same : SameEnd s s' outcome outcome') (above : State.Above below s s') :
    outcome.SameButText outcome' := by
  cases same with
  | completed =>
    have values := above.value
    generalize s.value = value, s'.value = value' at values
    cases values with
    | same v => exact .same _
    | texts a b => exact .texts a b
  | failed fault => exact .same _
  | shutdown => exact .same _

end Comparison

namespace Interpreter

/-- A line that misses no operand does the same with more items under the stack. The outcomes are
equal but for a text that is reported, and the sessions after it differ only in the items below,
which are all in their places. -/
theorem evalLine_onTopOf (i : Interpreter) (line : String) (below : List Int64)
    (running : i.state.status = .running)
    (enough : ∀ fault, (i.evalLine line).1 = .failed fault → ¬ fault.IsShortage) :
    (i.evalLine line).1.SameButText ((i.onTopOf below).evalLine line).1 ∧
      ((i.onTopOf below).evalLine line).2 = (i.evalLine line).2.onTopOf below := by
  by_cases empty : line = ""
  · subst empty
    exact ⟨.same _, rfl⟩
  obtain ⟨fault, short, failed⟩ | ⟨s, s', outcome, outcome', above, same, first, second⟩ :=
    (Comparison.lawful_withBelow below).evalLine i (i.onTopOf below) rfl rfl (Nat.le_refl _)
      (.inl rfl) running (State.Above.onTopOf below i.state) empty
  · exact absurd short (enough fault failed)
  · rw [first, second]
    refine ⟨same.sameButText above, ?_⟩
    exact congrArg (fun left => ({ i with state := left } : Interpreter)) above.clearValue

/-- A division by zero takes its two operands and leaves the item below them. -/
theorem evalLine_onTopOf_seven :
    ((new .empty 128 .space).evalLine "8 0 /").1 = .failed (.divisionByZero "/") ∧
    (((new .empty 128 .space).onTopOf [7]).evalLine "8 0 /").1 =
      .failed (.divisionByZero "/") ∧
    (((new .empty 128 .space).onTopOf [7]).evalLine "8 0 /").2.state.ints.toList = [7] := by
  have failed : ((new .empty 128 .space).evalLine "8 0 /").1 = .failed (.divisionByZero "/") := by
    cbv
  have gone : ((new .empty 128 .space).evalLine "8 0 /").2.state.ints.toList = [] := by cbv
  have enough : ∀ fault, ((new .empty 128 .space).evalLine "8 0 /").1 = .failed fault →
      ¬ fault.IsShortage := by
    intro fault same
    cases failed.symm.trans same
    exact id
  obtain ⟨outcome, left⟩ := evalLine_onTopOf (new .empty 128 .space) "8 0 /" [7] rfl enough
  refine ⟨failed, ?_, ?_⟩
  · rw [failed] at outcome
    exact outcome.eq_failed
  · rw [left, onTopOf, State.onTopOf, Stack.toList_ofList, gone]
    rfl

end Interpreter

end Forth

import Forth.Proofs.Lockstep
import Forth.Proofs.Macros

/-!
# Raising the depth limit

The limit has no part in what a line does, except where it stops one. Two executions under
different limits are the same up to the word that only the lower limit finds too deep, so a line
that does not fail there goes the same way under every higher limit
(`Interpreter.evalLine_withMaxDepth`). This holds for words that mention themselves too, of which no
limit is high enough for an execution that goes on to its end.
-/

namespace Forth

namespace Comparison

/-- The executions are the same, unless the first finds a word too deep. -/
def upTo (limit : Nat) : Comparison where
  Related s s' := s = s'
  Excused fault := ∃ word, fault = .tooDeep word limit

theorem inStep_upTo {α : Type} (limit : Nat) (act : Action α) : (upTo limit).InStep act act := by
  rintro s _ rfl
  cases act s with
  | ok a s => exact .ok a rfl
  | error fault s => exact .error fault rfl

theorem lawful_upTo (limit : Nat) : (upTo limit).Lawful where
  isShutdown := by
    rintro s _ rfl
    rfl
  size := by
    rintro s _ rfl
    exact .inl rfl
  pop := inStep_upTo limit _
  push n := inStep_upTo limit _
  report n := inStep_upTo limit _
  summary := inStep_upTo limit _
  shutdown := inStep_upTo limit _

theorem SameEnd.eq {s : State} {outcome outcome' : Outcome} (same : SameEnd s s outcome outcome') :
    outcome = outcome' := by
  cases same <;> rfl

end Comparison

namespace Interpreter

/-- The same session under another limit. -/
def withMaxDepth (i : Interpreter) (limit : Nat) : Interpreter := { i with maxDepth := limit }

variable {i : Interpreter} {t : Token} {line : String} {limit : Nat}

/-- In a session that is over no word expands, so the limit stops nothing. -/
theorem execute_withMaxDepth_of_shutdown (ended : i.state.status = .shutdown) (t : Token) :
    ((i.withMaxDepth limit).execute t).2 = (i.execute t).2.withMaxDepth limit := by
  by_cases expandable : i.dictionary.Expandable t
  · obtain ⟨w, stands⟩ := expandable
    have idle : ((i.withMaxDepth limit).execute t).2 = i.withMaxDepth limit :=
      execute_of_shutdown ended stands
    rw [execute_of_shutdown ended stands, idle]
  · have same : Execution.execute i.dictionary limit t =
        Execution.execute i.dictionary i.maxDepth t := by
      rw [Execution.execute_eq_expand, Execution.execute_eq_expand]
      exact Execution.expand_leaf expandable rfl
    rw [execute_snd, execute_snd]
    exact congrArg (fun act => { i with maxDepth := limit, state := Action.after act i.state }) same

theorem evalLine_withMaxDepth_of_shutdown (ended : i.state.status = .shutdown) (line : String) :
    (i.withMaxDepth limit).evalLine line =
      ((i.evalLine line).1, (i.evalLine line).2.withMaxDepth limit) := by
  cases tokens : i.tokensOf line with
  | nil =>
    have raised : (i.withMaxDepth limit).evalLine line =
        (.completed (if line.isEmpty then none else i.state.value),
          (i.withMaxDepth limit).clearValue) := evalLine_of_no_tokens tokens
    rw [evalLine_of_no_tokens tokens, raised]
    rfl
  | cons t ts =>
    have raised : (i.withMaxDepth limit).evalLine line =
        (.shutdown, ((i.withMaxDepth limit).execute t).2.clearValue) :=
      evalLine_of_shutdown ended tokens
    rw [evalLine_of_shutdown ended tokens, raised, execute_withMaxDepth_of_shutdown ended]
    rfl

theorem evalLine_withMaxDepth_of_running (running : i.state.status = .running)
    (le : i.maxDepth ≤ limit) (line : String) :
    (∃ word, (i.evalLine line).1 = .failed (.tooDeep word i.maxDepth)) ∨
      (i.withMaxDepth limit).evalLine line =
        ((i.evalLine line).1, (i.evalLine line).2.withMaxDepth limit) := by
  by_cases empty : line = ""
  · subst empty
    exact .inr rfl
  obtain ⟨_, ⟨word, rfl⟩, failed⟩ | ⟨s, _, outcome, outcome', rfl, same, first, second⟩ :=
    (Comparison.lawful_upTo i.maxDepth).evalLine i (i.withMaxDepth limit) rfl rfl le
      (.inr fun word => ⟨word, rfl⟩) running rfl empty
  · exact .inl ⟨word, failed⟩
  · rw [first, second, same.eq]
    exact .inr rfl

/-- A line that is not stopped by the depth limit goes the same way under every higher limit. Where
the outcomes differ, the lower limit was the cause. -/
theorem evalLine_withMaxDepth (i : Interpreter) (line : String) (limit : Nat)
    (le : i.maxDepth ≤ limit) :
    ((∀ word l, (i.evalLine line).1 ≠ .failed (.tooDeep word l)) →
      (i.withMaxDepth limit).evalLine line =
        ((i.evalLine line).1, (i.evalLine line).2.withMaxDepth limit)) ∧
    (((i.withMaxDepth limit).evalLine line).1 ≠ (i.evalLine line).1 →
      ∃ word, (i.evalLine line).1 = .failed (.tooDeep word i.maxDepth)) := by
  have compared : (∃ word, (i.evalLine line).1 = .failed (.tooDeep word i.maxDepth)) ∨
      (i.withMaxDepth limit).evalLine line =
        ((i.evalLine line).1, (i.evalLine line).2.withMaxDepth limit) := by
    cases status : i.state.status with
    | running => exact evalLine_withMaxDepth_of_running status le line
    | shutdown => exact .inr (evalLine_withMaxDepth_of_shutdown status line)
  rcases compared with ⟨word, stopped⟩ | same
  · exact ⟨fun never => absurd stopped (never word i.maxDepth), fun _ => ⟨word, stopped⟩⟩
  · refine ⟨fun _ => same, fun differs => ?_⟩
    rw [same] at differs
    exact absurd rfl differs

/-- A session with a word that would go on forever, were it not for `bye`. -/
def leaving : Interpreter := .new (.ofList [.define "leave" "bye leave"]) 1 .space

theorem evalLine_withMaxDepth_leaving :
    leaving.maxDepth ≤ 200000 ∧ (leaving.evalLine "leave").1 = .shutdown ∧
    ((leaving.withMaxDepth 200000).evalLine "leave").1 = .shutdown := by
  have deeper : leaving.maxDepth ≤ 200000 := by decide
  have ended : (leaving.evalLine "leave").1 = .shutdown := by cbv
  have never : ∀ word l, (leaving.evalLine "leave").1 ≠ .failed (.tooDeep word l) := by
    intro word l stopped
    rw [ended] at stopped
    injection stopped
  refine ⟨deeper, ended, ?_⟩
  rw [(evalLine_withMaxDepth leaving "leave" 200000 deeper).1 never, ended]

end Interpreter

end Forth

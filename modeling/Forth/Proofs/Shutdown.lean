import Mathlib
import Forth.Proofs.DispatchLog
import Forth.Session

/-!
# The end of a session

Nothing but the native word `bye` ends a session. Whether a line does is read off its log
(`status_evalLine`), and so is what it leaves: what the tokens before `bye` did, at whatever depth
`bye` was met, and nothing of what comes after it in a body or on the line
(`state_evalLine_of_endsSession`).

There is no way back. A session that is over can still be called, but its composite words do not
expand any more, and a line is left after its first token (`evalLine_of_shutdown`). Where a
composite word hides `bye`, no token stands for the native word, and the session is `Unending`:
each call keeps it so, and then any number of calls do, and a whole run.
-/

namespace Forth

namespace Execution

variable {d : Dictionary} {limit : Nat} {t : Token} {frames : Stack Frame} {s : State}

theorem status_of_dispatch_ok {frames' : Stack Frame} {s' : State} (ended : s.status = .shutdown)
    (h : dispatch d limit t frames s = .ok frames' s') : s'.status = .shutdown := by
  by_cases ends : d.EndsSession t
  · rw [dispatch_of_endsSession ends] at h
    injection h with _ same
    rw [← same]
  · rw [← Action.after_of_ok (effect_of_dispatch_ok h), status_after_effect ends, ended]

/-- Nothing is dispatched after a token in a session that is over. -/
theorem dispatched_of_shutdown (ended : s.status = .shutdown) :
    dispatched d limit t frames s = [t] := by
  rw [dispatched]
  cases result : dispatch d limit t frames s with
  | error fault s' => rfl
  | ok frames' s' =>
    have still := State.isShutdown_iff.2 (status_of_dispatch_ok ended result)
    exact congrArg (t :: ·) (dispatchedFrom_of_step_eq_none (step_of_shutdown still))

end Execution

namespace Interpreter

/-- The tokens of a line. An empty line is not cut at all and has none. -/
def tokensOf (i : Interpreter) (line : String) : List Token :=
  if line.isEmpty then [] else i.split.split line

/-- What a session can be asked to do. -/
inductive Call where
  | execute (t : Token)
  | line (text : String)

def perform (i : Interpreter) : Call → Interpreter
  | .execute t => (i.execute t).2
  | .line text => (i.evalLine text).2

variable {i : Interpreter} {t : Token} {ts : List Token} {line : String}

/-! ## Tokens -/

theorem execute_snd (i : Interpreter) (t : Token) :
    (i.execute t).2 =
      { i with state := Action.after (Execution.execute i.dictionary i.maxDepth t) i.state } := by
  rw [execute, Action.after]
  cases Execution.execute i.dictionary i.maxDepth t i.state <;> rfl

theorem state_execute (i : Interpreter) (t : Token) :
    (i.execute t).2.state = Action.after (Execution.execute i.dictionary i.maxDepth t) i.state := by
  rw [execute_snd]

theorem dictionary_execute (i : Interpreter) (t : Token) :
    (i.execute t).2.dictionary = i.dictionary := by
  rw [execute_snd]

/-- Executing a token ends the session exactly if a token that ends it is dispatched. -/
theorem status_execute (i : Interpreter) (t : Token) :
    (i.execute t).2.state.status =
      if ∃ u ∈ Execution.dispatched i.dictionary i.maxDepth t .empty i.state,
        i.dictionary.EndsSession u then .shutdown else i.state.status := by
  rw [state_execute]
  exact (Execution.account_execute i.dictionary i.maxDepth t i.state).status_after

theorem status_execute_of_shutdown (ended : i.state.status = .shutdown) (t : Token) :
    (i.execute t).2.state.status = .shutdown := by
  rw [status_execute, ended, ite_self]

/-- In a session that is over, a composite word does nothing, too deep or not. -/
theorem execute_of_shutdown (ended : i.state.status = .shutdown)
    {w : Composite} (stands : i.dictionary.meaning t = .composite w) : (i.execute t).2 = i := by
  by_cases deep : i.maxDepth ≤ 0
  · have failed := congrFun (Execution.expand_of_too_deep stands deep) i.state
    rw [execute_of_expand_error failed]
  · have idle := congrFun (Execution.expand_of_composite stands (Nat.lt_of_not_le deep)) i.state
    rw [Execution.inOrder_of_shutdown (State.isShutdown_iff.2 ended)] at idle
    rw [execute_of_expand_ok idle]

/-! ## Lines -/

theorem tokensOf_of_ne_empty (nonempty : line ≠ "") : i.tokensOf line = i.split.split line :=
  if_neg (by simpa using nonempty)

theorem evalTokens_of_shutdown (ended : i.state.status = .shutdown) :
    i.evalTokens (t :: ts) = (.shutdown, (i.execute t).2) := by
  have still := State.isShutdown_iff.2 (status_execute_of_shutdown ended t)
  rw [evalTokens]
  exact if_pos still

/-- A line in a session that is over is left after its first token. -/
theorem dispatched_of_shutdown (ended : i.state.status = .shutdown) :
    i.dispatched (t :: ts) = [t] := by
  have still := State.isShutdown_iff.2 (status_execute_of_shutdown ended t)
  rw [dispatched, Execution.dispatched_of_shutdown ended]
  cases result : i.execute t with
  | mk answer next =>
    rw [result] at still
    cases answer with
    | ok _ => exact if_pos still
    | error fault => rfl

theorem evalLine_of_shutdown (ended : i.state.status = .shutdown) (h : i.tokensOf line = t :: ts) :
    i.evalLine line = (.shutdown, (i.execute t).2.clearValue) := by
  have nonempty : line ≠ "" := by
    rintro rfl
    cases h
  rw [evalLine_of_ne_empty nonempty, ← tokensOf_of_ne_empty nonempty, h,
    evalTokens_of_shutdown ended]

theorem evalLine_of_no_tokens (h : i.tokensOf line = []) :
    i.evalLine line =
      (.completed (if line.isEmpty then none else i.state.value), i.clearValue) := by
  by_cases empty : line = ""
  · subst empty
    rfl
  · have full : line.isEmpty = false := by simpa using empty
    rw [evalLine_of_ne_empty empty, ← tokensOf_of_ne_empty empty, h, full]
    rfl

/-- What the tokens of a line do, as long as the session is not ended. -/
def lineAction (i : Interpreter) (line : String) : Action Unit :=
  Execution.inOrder (Execution.expand i.dictionary i.maxDepth 0) (i.tokensOf line)

theorem conclude_eq_shutdown_iff {act : Action Unit} :
    (i.conclude (act i.state)).1 = .shutdown ↔ (Action.after act i.state).status = .shutdown := by
  rw [Action.after, ← State.isShutdown_iff]
  cases act i.state with
  | ok _ s => cases shut : s.isShutdown <;> simp [conclude, shut]
  | error fault s => cases shut : s.isShutdown <;> simp [conclude, shut]

theorem conclude_snd {act : Action Unit} :
    (i.conclude (act i.state)).2 = { i with state := Action.after act i.state } := by
  rw [Action.after]
  cases act i.state <;> rfl

/-- How a line ends whose tokens came to the given result, its value being forgotten. -/
def finish (i : Interpreter) (result : EStateM.Result Fault State Unit) : Outcome × Interpreter :=
  ((i.conclude result).1, (i.conclude result).2.clearValue)

theorem finish_ok (i : Interpreter) (s : State) :
    i.finish (.ok () s) =
      (if s.isShutdown then .shutdown else .completed s.value, clearValue { i with state := s }) :=
  rfl

theorem finish_error (i : Interpreter) (fault : Fault) (s : State) :
    i.finish (.error fault s) =
      (if s.isShutdown then .shutdown else .failed fault, clearValue { i with state := s }) :=
  rfl

theorem evalLine_eq_finish (running : i.state.status = .running) (nonempty : line ≠ "") :
    i.evalLine line = i.finish (i.lineAction line i.state) := by
  rw [evalLine_of_ne_empty nonempty, ← tokensOf_of_ne_empty nonempty,
    evalTokens_eq_conclude i _ (State.isShutdown_eq_false_iff.2 running)]
  rfl

/-- Where no value is left from before, this includes the empty line. -/
theorem evalLine_eq_finish_of_fresh (running : i.state.status = .running)
    (fresh : i.state.value = none) (line : String) :
    i.evalLine line = i.finish (i.lineAction line i.state) := by
  by_cases empty : line = ""
  · subst empty
    have idle : i.lineAction "" i.state = .ok () i.state := rfl
    rw [idle, finish_ok, State.isShutdown_eq_false_iff.2 running, fresh]
    rfl
  · exact evalLine_eq_finish running empty

theorem evalLine_of_running (running : i.state.status = .running) (line : String) :
    ((i.evalLine line).1 = .shutdown ↔
      (Action.after (i.lineAction line) i.state).status = .shutdown) ∧
    (i.evalLine line).2 =
      clearValue { i with state := Action.after (i.lineAction line) i.state } := by
  by_cases empty : line = ""
  · subst empty
    have idle : Action.after (i.lineAction "") i.state = i.state := rfl
    rw [idle, running]
    exact ⟨by simp [evalLine], rfl⟩
  · rw [evalLine_eq_finish running empty]
    exact ⟨conclude_eq_shutdown_iff, congrArg clearValue conclude_snd⟩

theorem account_line (running : i.state.status = .running) (line : String) :
    Execution.Account i.dictionary i.state (i.dispatched (i.tokensOf line))
      (i.lineAction line i.state) :=
  account_inOrder i _ (State.isShutdown_eq_false_iff.2 running)

/-- The session goes on after a line that fails. -/
theorem running_of_lineAction_error {fault : Fault} {s : State}
    (running : i.state.status = .running) (failed : i.lineAction line i.state = .error fault s) :
    s.isShutdown = false := by
  have account := account_line running line
  rw [failed] at account
  rw [State.isShutdown_eq_false_iff, account.status_of_error, running]

/-- A line ends the session exactly if a token that ends it is dispatched. -/
theorem status_evalLine (running : i.state.status = .running) (line : String) :
    (i.evalLine line).2.state.status =
      if ∃ u ∈ i.dispatched (i.tokensOf line), i.dictionary.EndsSession u then .shutdown
      else .running := by
  rw [(evalLine_of_running running line).2, ← running]
  exact (account_line running line).status_after

/-- The outcome of a line and the status after it agree on whether the session is over. -/
theorem evalLine_eq_shutdown_iff (running : i.state.status = .running) (line : String) :
    (i.evalLine line).1 = .shutdown ↔ (i.evalLine line).2.state.status = .shutdown := by
  obtain ⟨outcome, left⟩ := evalLine_of_running running line
  rw [outcome, left]
  rfl

/-- A token of the line that ends the session is the last one, at whatever depth it is met. The
state is what the tokens before it leave. -/
theorem state_evalLine_of_endsSession (running : i.state.status = .running)
    {before later : List Token} (log : i.dispatched (i.tokensOf line) = before ++ t :: later)
    (ends : i.dictionary.EndsSession t) :
    later = [] ∧ ∃ s, Execution.replay i.dictionary before i.state = .ok () s ∧
      (i.evalLine line).2.state = { s with status := .shutdown, value := none } := by
  have account := account_line running line
  rw [log] at account
  obtain ⟨last, s, did, result⟩ := account.shutdown_of_endsSession ends
  refine ⟨last, s, did, ?_⟩
  rw [(evalLine_of_running running line).2, Action.after_of_ok result]
  rfl

/-! ## Calls -/

theorem status_perform_of_shutdown (ended : i.state.status = .shutdown) (call : Call) :
    (i.perform call).state.status = .shutdown := by
  cases call with
  | execute t => exact status_execute_of_shutdown ended t
  | line text =>
    cases tokens : i.tokensOf text with
    | nil =>
      rw [perform, evalLine_of_no_tokens tokens]
      exact ended
    | cons t ts =>
      rw [perform, evalLine_of_shutdown ended tokens]
      exact status_execute_of_shutdown ended t

theorem status_foldl_perform_of_shutdown (ended : i.state.status = .shutdown) (calls : List Call) :
    (calls.foldl perform i).state.status = .shutdown := by
  induction calls generalizing i with
  | nil => exact ended
  | cons call calls ih => exact ih (status_perform_of_shutdown ended call)

/-- The session goes on, and there is no token that could end it. -/
structure Unending (i : Interpreter) : Prop where
  running : i.state.status = .running
  none_ends : ∀ t, ¬ i.dictionary.EndsSession t

namespace Unending

theorem evalLine (h : i.Unending) (line : String) : (i.evalLine line).2.Unending := by
  constructor
  · rw [status_evalLine h.running]
    exact if_neg fun ⟨t, _, ends⟩ => h.none_ends t ends
  · rw [(evalLine_of_running h.running line).2]
    exact h.none_ends

theorem outcome_ne_shutdown (h : i.Unending) (line : String) :
    (i.evalLine line).1.isShutdown = false := by
  cases outcome : (i.evalLine line).1 with
  | shutdown =>
    have ended := (evalLine_eq_shutdown_iff h.running line).1 outcome
    cases ended.symm.trans (h.evalLine line).running
  | completed value => rfl
  | failed fault => rfl

theorem perform (h : i.Unending) (call : Call) : (i.perform call).Unending := by
  cases call with
  | line text => exact h.evalLine text
  | execute t =>
    constructor
    · rw [Interpreter.perform, status_execute, h.running]
      exact if_neg fun ⟨u, _, ends⟩ => h.none_ends u ends
    · rw [Interpreter.perform, dictionary_execute]
      exact h.none_ends

theorem foldl_perform (h : i.Unending) (calls : List Call) :
    (calls.foldl Interpreter.perform i).Unending := by
  induction calls generalizing i with
  | nil => exact h
  | cons call calls ih => exact ih (h.perform call)

/-- A session without a token to end it ends with its input, or with a failure. -/
theorem run_ne_ok (h : i.Unending) (prompt : String) (source : Session.Source)
    (sink : Session.Sink) : (Session.run prompt ⟨i, source, sink⟩).1 ≠ .ok () := by
  intro ended
  obtain ⟨j, line, unending, shut⟩ :=
    (Session.run_induction prompt ⟨i, source, sink⟩
      (fun j line (unending : j.Unending) => unending.evalLine line) h).2 ended
  rw [unending.outcome_ne_shutdown] at shut
  cases shut

end Unending

theorem unending_of_hidden (running : i.state.status = .running)
    (hidden : (i.dictionary.find? Native.bye.name).isSome = true) : i.Unending :=
  ⟨running, Dictionary.meaning_ne_native hidden⟩

/-- A session is shut down by the native word `bye` alone, at that very point, and for good.

While it is running, a line shuts it down exactly if `bye` is dispatched in the course of it, at any
depth. Then `bye` is the last token to be dispatched, and the state is what the tokens before it
leave. Once it is over, no call, no run and no native word brings it back; composite words change
nothing, and of a line the first token is executed only. Where a composite word has the name of
`bye`, no calls shut it down, and no run ends well. -/
theorem shutdown_by_bye_for_good (i : Interpreter) :
    (i.state.status = .running → ∀ line,
      ((i.evalLine line).1 = .shutdown ↔ (i.evalLine line).2.state.status = .shutdown) ∧
      ((i.evalLine line).1 = .shutdown ↔
        ∃ t ∈ i.dispatched (i.tokensOf line), i.dictionary.meaning t = .native .bye) ∧
      ∀ before t later, i.dispatched (i.tokensOf line) = before ++ t :: later →
        i.dictionary.meaning t = .native .bye →
        later = [] ∧ ∃ s, Execution.replay i.dictionary before i.state = .ok () s ∧
          (i.evalLine line).2.state = { s with status := .shutdown, value := none }) ∧
    (i.state.status = .shutdown →
      (∀ calls : List Call, (calls.foldl perform i).state.status = .shutdown) ∧
      (∀ prompt source sink,
        (Session.run prompt ⟨i, source, sink⟩).2.interpreter.state.status = .shutdown) ∧
      (∀ w : Native, (Action.after w.apply i.state).status = .shutdown) ∧
      (∀ t w, i.dictionary.meaning t = .composite w → (i.execute t).2 = i) ∧
      ∀ line t ts, i.tokensOf line = t :: ts →
        i.dispatched (i.tokensOf line) = [t] ∧
        i.evalLine line = (.shutdown, (i.execute t).2.clearValue)) ∧
    (i.state.status = .running → (i.dictionary.find? Native.bye.name).isSome = true →
      (∀ calls : List Call, (calls.foldl perform i).state.status = .running) ∧
      ∀ prompt source sink, (Session.run prompt ⟨i, source, sink⟩).1 ≠ .ok ()) := by
  refine ⟨?_, ?_, ?_⟩
  · intro running line
    refine ⟨evalLine_eq_shutdown_iff running line, ?_, ?_⟩
    · rw [evalLine_eq_shutdown_iff running, status_evalLine running, ite_eq_left_iff]
      simp [Dictionary.EndsSession]
    · intro before t later log ends
      exact state_evalLine_of_endsSession running log ends
  · intro ended
    have keeps : ∀ (j : Interpreter) (line : String), j.state.status = .shutdown →
        (j.evalLine line).2.state.status = .shutdown :=
      fun _ line ended => status_perform_of_shutdown ended (.line line)
    refine ⟨status_foldl_perform_of_shutdown ended, ?_, ?_, ?_, ?_⟩
    · intro prompt source sink
      exact (Session.run_induction prompt ⟨i, source, sink⟩ keeps ended).1
    · exact fun w => Native.status_after_apply_of_shutdown w ended
    · intro t w stands
      exact execute_of_shutdown ended stands
    · intro line t ts tokens
      rw [tokens]
      exact ⟨dispatched_of_shutdown ended, evalLine_of_shutdown ended tokens⟩
  · intro running hidden
    have unending := unending_of_hidden running hidden
    exact ⟨fun calls => (unending.foldl_perform calls).running, unending.run_ne_ok⟩

/-- A session that is left by `quit`, in the middle of its body. -/
def quitting : Interpreter := .new (.ofList [.define "quit" "1 bye 2"]) 128 .space

/-- A session in which `bye` is a word like any other. -/
def staying : Interpreter := .new (.ofList [.define "bye" "1 ."]) 128 .space

/-- Neither the 2 of the body nor the 3 of the line is pushed, and the session stays over. Where
`bye` is hidden, nothing ends the session. -/
theorem shutdown_by_quit :
    quitting.dispatched (quitting.tokensOf "5 quit 3") = ["5", "quit", "1", "bye"] ∧
    (quitting.evalLine "5 quit 3").1 = .shutdown ∧
    (quitting.evalLine "5 quit 3").2.state =
      { State.initial with ints := .ofList [1, 5], status := .shutdown } ∧
    (∀ calls : List Call,
      (calls.foldl perform (quitting.evalLine "5 quit 3").2).state.status = .shutdown) ∧
    ∀ prompt source sink, (Session.run prompt ⟨staying, source, sink⟩).1 ≠ .ok () := by
  have log : quitting.dispatched (quitting.tokensOf "5 quit 3") = ["5", "quit", "1", "bye"] := by
    cbv
  have ends : quitting.dictionary.meaning "bye" = .native .bye := by decide
  have replayed : Execution.replay quitting.dictionary ["5", "quit", "1"] quitting.state =
      .ok () { State.initial with ints := .ofList [1, 5] } := by cbv
  obtain ⟨agree, dispatched, cut⟩ := (shutdown_by_bye_for_good quitting).1 rfl "5 quit 3"
  have shut := dispatched.2 ⟨"bye", by simp [log], ends⟩
  obtain ⟨-, s, did, left⟩ := cut ["5", "quit", "1"] "bye" [] log ends
  rw [replayed] at did
  injection did with _ same
  subst same
  refine ⟨log, shut, left, ?_, ?_⟩
  · exact ((shutdown_by_bye_for_good (quitting.evalLine "5 quit 3").2).2.1 (agree.1 shut)).1
  · exact ((shutdown_by_bye_for_good staying).2.2 rfl (by decide)).2

end Interpreter

end Forth

import Forth.Proofs.Recursion

/-!
# The log of dispatched tokens

An execution dispatches one token after the other, at whatever depth it meets them. `dispatched`
is the list of these tokens, up to the last one: the one that failed, or that ended the session, or
after which nothing was left to do.

The log accounts for everything that an execution does to the state. The frames and the depth
decide which tokens are dispatched, but what each of them does is up to what it stands for
(`effect`), so the tokens of the log, let to act one by one, lead to the same state. Only the last
of them can end the session. Both are said by `Account`, for a token and then for the tokens of a
line.
-/

namespace Forth

/-- The token stands for the word that ends the session. -/
def Dictionary.EndsSession (d : Dictionary) (t : Token) : Prop := d.meaning t = .native .bye

instance (d : Dictionary) (t : Token) : Decidable (d.EndsSession t) :=
  inferInstanceAs (Decidable (d.meaning t = .native .bye))

namespace Execution

/-- The token that a step under these frames dispatches, unless it takes off a frame. -/
def nextToken? (frames : Stack Frame) : Option Token := frames.pop?.bind fun (f, _) => f.token?

set_option linter.unusedVariables false in
/-- The tokens that `run` dispatches, a last one that fails included. -/
def dispatchedFrom (d : Dictionary) (limit : Nat) (frames : Stack Frame) (s : State) : List Token :=
  match h : step d limit frames s with
  | none => []
  | some (.ok after s) => (nextToken? frames).toList ++ dispatchedFrom d limit after s
  | some (.error _ _) => (nextToken? frames).toList
termination_by weight d.longest limit frames.toList
decreasing_by exact weight_lt_of_step h

/-- The tokens that are dispatched when `t` is, and then the frames are run. -/
def dispatched (d : Dictionary) (limit : Nat) (t : Token) (frames : Stack Frame) (s : State) :
    List Token :=
  t :: match dispatch d limit t frames s with
    | .ok after s => dispatchedFrom d limit after s
    | .error _ _ => []

/-- What a token does by itself. A composite word does nothing: the tokens of its body are
dispatched after it. -/
def effect (d : Dictionary) (t : Token) : Action Unit :=
  match d.meaning t with
  | .number n => Action.push n
  | .native w => w.apply
  | .composite _ => pure ()
  | .fault fault => throw fault

/-- The value that a token reports by itself, if it reports one. -/
def reportOf? (d : Dictionary) (t : Token) (s : State) : Option Value :=
  match d.meaning t with
  | .native w => w.report? s
  | .number _ | .composite _ | .fault _ => none

/-- Lets tokens act one by one, up to the first fault. No frames are kept, and nothing is asked
about the session. -/
def replay (d : Dictionary) (ts : List Token) : Action Unit := forM ts (effect d)

/-- How an execution from `s` went that dispatched the given tokens: it was shut down by the last of
them, or none of them shut it down and it went to its end or to a fault. -/
inductive Account (d : Dictionary) (s : State) :
    List Token → EStateM.Result Fault State Unit → Prop where
  | shutdown {before : List Token} {last : Token} {s' : State}
      (others : ∀ u ∈ before, ¬ d.EndsSession u) (ends : d.EndsSession last)
      (did : replay d before s = .ok () s') :
      Account d s (before ++ [last]) (.ok () { s' with status := .shutdown })
  | finished {log : List Token} {s' : State} (others : ∀ u ∈ log, ¬ d.EndsSession u)
      (did : replay d log s = .ok () s') : Account d s log (.ok () s')
  | failed {log : List Token} {fault : Fault} {s' : State}
      (others : ∀ u ∈ log, ¬ d.EndsSession u) (did : Action.after (replay d log) s = s') :
      Account d s log (.error fault s')

section

variable {d : Dictionary} {limit : Nat} {t : Token} {ts us log : List Token}
variable {frames frames' below : Stack Frame} {f : Frame} {s s' : State} {fault : Fault}

/-! ## What single tokens do -/

theorem replay_nil (d : Dictionary) (s : State) : replay d [] s = .ok () s := rfl

theorem replay_cons (d : Dictionary) (t : Token) (ts : List Token) :
    replay d (t :: ts) = effect d t >>= fun _ => replay d ts := rfl

theorem replay_singleton (d : Dictionary) (t : Token) : replay d [t] = effect d t :=
  (replay_cons d t []).trans bind_pure_unit

theorem replay_append (h : replay d ts s = .ok () s') : replay d (ts ++ us) s = replay d us s' := by
  rw [replay, List.forM_append]
  exact Action.bind_of_ok h

theorem effect_of_number {n : Int64} (h : d.meaning t = .number n) :
    effect d t = Action.push n := by
  rw [effect, h]

theorem effect_of_native {w : Native} (h : d.meaning t = .native w) : effect d t = w.apply := by
  rw [effect, h]

theorem effect_of_composite {w : Composite} (h : d.meaning t = .composite w) :
    effect d t = pure () := by
  rw [effect, h]

theorem effect_of_fault (h : d.meaning t = .fault fault) : effect d t = throw fault := by
  rw [effect, h]

/-- Dispatching a token changes the state by its effect, and so does failing to. -/
theorem effect_of_dispatch (d : Dictionary) (limit : Nat) (t : Token) (frames : Stack Frame)
    (s : State) :
    match dispatch d limit t frames s with
    | .ok _ s' => effect d t s = .ok () s'
    | .error _ s' => Action.after (effect d t) s = s' := by
  cases stands : d.meaning t with
  | number n =>
    rw [dispatch_of_number stands, effect_of_number stands]
    rfl
  | native w =>
    rw [dispatch_of_native stands, effect_of_native stands, Action.after]
    cases w.apply s <;> rfl
  | composite w =>
    rw [dispatch_of_composite stands, effect_of_composite stands]
    by_cases deep : limit ≤ frames.size
    · rw [if_pos deep]
      rfl
    · rw [if_neg deep]
      rfl
  | fault cause =>
    rw [dispatch_of_fault stands, effect_of_fault stands]
    rfl

theorem effect_of_dispatch_ok (h : dispatch d limit t frames s = .ok frames' s') :
    effect d t s = .ok () s' := by
  have acted := effect_of_dispatch d limit t frames s
  rwa [h] at acted

theorem after_effect_of_dispatch_error (h : dispatch d limit t frames s = .error fault s') :
    Action.after (effect d t) s = s' := by
  have acted := effect_of_dispatch d limit t frames s
  rwa [h] at acted

theorem dispatch_of_endsSession (ends : d.EndsSession t) :
    dispatch d limit t frames s = .ok frames { s with status := .shutdown } :=
  dispatch_of_native ends

/-- A token changes the stack, the value if it stands for a word that reports one, and the status if
it ends the session. -/
theorem after_effect (d : Dictionary) (t : Token) (s : State) :
    ∃ ints, Action.after (effect d t) s =
      ⟨ints, s.floats, (reportOf? d t s).or s.value,
        if d.EndsSession t then .shutdown else s.status⟩ := by
  cases stands : d.meaning t with
  | native w =>
    rw [effect_of_native stands]
    simp only [reportOf?, Dictionary.EndsSession, stands, Meaning.native.injEq]
    exact Native.after_apply w s
  | number n =>
    rw [effect_of_number stands]
    simp only [reportOf?, Dictionary.EndsSession, stands, reduceCtorEq, if_false]
    exact ⟨s.ints.push n, rfl⟩
  | composite w =>
    rw [effect_of_composite stands]
    simp only [reportOf?, Dictionary.EndsSession, stands, reduceCtorEq, if_false]
    exact ⟨s.ints, rfl⟩
  | fault cause =>
    rw [effect_of_fault stands]
    simp only [reportOf?, Dictionary.EndsSession, stands, reduceCtorEq, if_false]
    exact ⟨s.ints, rfl⟩

/-- No other token touches the status. -/
theorem status_after_effect (other : ¬ d.EndsSession t) (s : State) :
    (Action.after (effect d t) s).status = s.status := by
  obtain ⟨ints, left⟩ := after_effect d t s
  rw [left]
  exact if_neg other

/-- Tokens that do not end the session leave its status as it is. -/
theorem status_after_replay (others : ∀ u ∈ ts, ¬ d.EndsSession u) (s : State) :
    (Action.after (replay d ts) s).status = s.status := by
  induction ts generalizing s with
  | nil => rfl
  | cons t ts ih =>
    obtain ⟨other, others⟩ := List.forall_mem_cons.1 others
    have kept := status_after_effect other s
    rw [replay_cons]
    cases first : effect d t s with
    | error fault s' =>
      rw [Action.after_of_error first] at kept
      rw [Action.after_of_error (Action.bind_of_error first), kept]
    | ok _ s' =>
      rw [Action.after_of_ok first] at kept
      rw [Action.after, Action.bind_of_ok first, ← Action.after, ih others, kept]

/-! ## The log of a run -/

theorem dispatchedFrom_of_step_eq_none (h : step d limit frames s = none) :
    dispatchedFrom d limit frames s = [] := by
  rw [dispatchedFrom, h]

theorem dispatchedFrom_of_step_ok (h : step d limit frames s = some (.ok frames' s')) :
    dispatchedFrom d limit frames s =
      (nextToken? frames).toList ++ dispatchedFrom d limit frames' s' := by
  rw [dispatchedFrom, h]

theorem dispatchedFrom_of_step_error (h : step d limit frames s = some (.error fault s')) :
    dispatchedFrom d limit frames s = (nextToken? frames).toList := by
  rw [dispatchedFrom, h]

theorem nextToken?_of_token? (popped : frames.pop? = some (f, below)) :
    nextToken? frames = f.token? := by
  rw [nextToken?, popped]
  rfl

/-! ## What the log accounts for -/

namespace Account

variable {result : EStateM.Result Fault State Unit}

theorem nil (d : Dictionary) (s : State) : Account d s [] (.ok () s) :=
  .finished (List.forall_mem_nil _) (replay_nil d s)

/-- Tokens that act without ending the session come before any account. -/
theorem append (others : ∀ u ∈ ts, ¬ d.EndsSession u) (did : replay d ts s = .ok () s')
    (later : Account d s' log result) : Account d s (ts ++ log) result := by
  cases later with
  | shutdown more ends acted =>
    rw [← List.append_assoc]
    exact .shutdown (List.forall_mem_append.2 ⟨others, more⟩) ends
      ((replay_append did).trans acted)
  | finished more acted =>
    exact .finished (List.forall_mem_append.2 ⟨others, more⟩) ((replay_append did).trans acted)
  | failed more acted =>
    refine .failed (List.forall_mem_append.2 ⟨others, more⟩) ?_
    rw [← acted, Action.after, replay_append did, Action.after]

/-- A token is dispatched, and then the frames are run. If it ends the session, the run has no step
and the log has no more tokens. -/
theorem dispatch_ok (h : dispatch d limit t frames s = .ok frames' s')
    (later : Account d s' (dispatchedFrom d limit frames' s') (run d limit frames' s')) :
    Account d s (t :: dispatchedFrom d limit frames' s') (run d limit frames' s') := by
  by_cases ends : d.EndsSession t
  · rw [dispatch_of_endsSession ends] at h
    injection h with _ same
    subst same
    have stopped : step d limit frames' { s with status := .shutdown } = none :=
      step_of_shutdown rfl
    rw [dispatchedFrom_of_step_eq_none stopped, run_of_step_eq_none stopped]
    exact shutdown (List.forall_mem_nil _) ends (replay_nil d s)
  · exact append (List.forall_mem_singleton.2 ends)
      ((congrFun (replay_singleton d t) s).trans (effect_of_dispatch_ok h)) later

/-- A token fails, and nothing is dispatched after it. -/
theorem dispatch_error (h : dispatch d limit t frames s = .error fault s') :
    Account d s [t] (.error fault s') := by
  refine failed (List.forall_mem_singleton.2 ?_) ?_
  · intro ends
    rw [dispatch_of_endsSession ends] at h
    injection h
  · rw [replay_singleton, after_effect_of_dispatch_error h]

/-- A session is over after an execution if one of the tokens ended it, and otherwise it stands as
before. -/
theorem status_after {act : Action Unit} (h : Account d s log (act s)) :
    (Action.after act s).status =
      if ∃ u ∈ log, d.EndsSession u then .shutdown else s.status := by
  rw [Action.after]
  generalize act s = result at h
  cases h with
  | @shutdown before last _ others ends did =>
    exact (if_pos ⟨last, List.mem_append_right before (List.mem_singleton_self last), ends⟩).symm
  | finished others did =>
    rw [if_neg (by simpa using others), ← status_after_replay others s, Action.after_of_ok did]
  | failed others did =>
    rw [if_neg (by simpa using others), ← status_after_replay others s, did]

/-- A fault leaves the status as it was. -/
theorem status_of_error (h : Account d s log (.error fault s')) : s'.status = s.status := by
  cases h with
  | failed others did => rw [← status_after_replay others s, did]

/-- An execution that leaves the session running dispatched no token that ends it. -/
theorem replay_of_running (h : Account d s log (.ok () s')) (running : s'.isShutdown = false) :
    (∀ u ∈ log, ¬ d.EndsSession u) ∧ replay d log s = .ok () s' := by
  cases h with
  | shutdown others ends did => cases running
  | finished others did => exact ⟨others, did⟩

/-- A token that ends the session is the last one, and its only effect. The tokens before it have
done all the rest. -/
theorem shutdown_of_endsSession {before later : List Token} {u : Token}
    (h : Account d s (before ++ u :: later) result) (ends : d.EndsSession u) :
    later = [] ∧ ∃ s', replay d before s = .ok () s' ∧
      result = .ok () { s' with status := .shutdown } := by
  have member : u ∈ before ++ u :: later := by simp
  generalize whole : before ++ u :: later = log at h member
  cases h with
  | finished others did => exact absurd ends (others u member)
  | failed others did => exact absurd ends (others u member)
  | @shutdown first last s' others _ did =>
    rcases List.eq_nil_or_concat later with rfl | ⟨between, v, rfl⟩
    · obtain ⟨rfl, -⟩ := List.append_inj' whole rfl
      exact ⟨rfl, s', did, rfl⟩
    · -- Were there tokens after it, it would stand before the last one.
      have whole : (before ++ u :: between) ++ [v] = first ++ [last] := by simpa using whole
      obtain ⟨rfl, -⟩ := List.append_inj' whole rfl
      exact absurd ends (others u (List.mem_append_right before List.mem_cons_self))

end Account

/-- The log of a run accounts for it. -/
theorem account_run (d : Dictionary) (limit : Nat) (frames : Stack Frame) (s : State) :
    Account d s (dispatchedFrom d limit frames s) (run d limit frames s) := by
  induction frames, s using run.induct d limit with
  | case1 frames s ended =>
    rw [dispatchedFrom_of_step_eq_none ended, run_of_step_eq_none ended]
    exact .nil d s
  | case2 frames s frames' s' stepped later =>
    rw [dispatchedFrom_of_step_ok stepped, run_of_step_ok stepped]
    obtain ⟨f, below, popped, -, ⟨finished, rfl, rfl⟩ | ⟨t, next, dispatched⟩⟩ :=
      cases_of_step stepped
    · rw [nextToken?_of_token? popped, finished]
      exact later
    · rw [nextToken?_of_token? popped, next]
      exact .dispatch_ok dispatched later
  | case3 frames s fault s' failed =>
    rw [dispatchedFrom_of_step_error failed, run_of_step_error failed]
    obtain ⟨f, below, t, popped, next, failed⟩ := cases_of_step_error failed
    rw [nextToken?_of_token? popped, next]
    exact .dispatch_error failed

/-- The log of a token accounts for its execution. -/
theorem account_execute (d : Dictionary) (limit : Nat) (t : Token) (s : State) :
    Account d s (dispatched d limit t .empty s) (execute d limit t s) := by
  rw [dispatched]
  cases first : dispatch d limit t .empty s with
  | ok frames s' =>
    rw [execute_of_dispatch_ok first]
    exact .dispatch_ok first (account_run d limit frames s')
  | error fault s' =>
    rw [execute_of_dispatch_error first]
    exact .dispatch_error first

end

end Execution

namespace Interpreter

/-- The tokens that are dispatched, at any depth, when the given tokens are evaluated in order. -/
def dispatched (i : Interpreter) : List Token → List Token
  | [] => []
  | t :: ts =>
    let log := Execution.dispatched i.dictionary i.maxDepth t .empty i.state
    match i.execute t with
    | (.ok (), next) => if next.state.isShutdown then log else log ++ next.dispatched ts
    | (.error _, _) => log

/-- The log of the tokens of a line accounts for what they come to. -/
theorem account_inOrder (i : Interpreter) (ts : List Token) (running : i.state.isShutdown = false) :
    Execution.Account i.dictionary i.state (i.dispatched ts)
      (Execution.inOrder (Execution.expand i.dictionary i.maxDepth 0) ts i.state) := by
  induction ts generalizing i with
  | nil => exact .nil i.dictionary i.state
  | cons t ts ih =>
    have first := Execution.account_execute i.dictionary i.maxDepth t i.state
    rw [Execution.execute_eq_expand] at first
    rw [dispatched, Execution.inOrder_cons running]
    cases result : Execution.expand i.dictionary i.maxDepth 0 t i.state with
    | error fault s =>
      rw [result] at first
      rw [execute_of_expand_error result, Action.bind_of_error result]
      exact first
    | ok _ s =>
      rw [result] at first
      rw [execute_of_expand_ok result, Action.bind_of_ok result]
      cases shut : s.isShutdown with
      | true =>
        simp only [shut, if_true, Execution.inOrder_of_shutdown shut]
        exact first
      | false =>
        obtain ⟨others, did⟩ := first.replay_of_running shut
        simp only [shut, Bool.false_eq_true, if_false]
        exact .append others did (ih { i with state := s } shut)

end Interpreter

end Forth

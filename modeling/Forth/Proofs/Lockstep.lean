import Forth.Proofs.Shutdown

/-!
# Two executions in step

The same tokens are executed twice, from states or under limits that differ. A `Comparison` says
when two states correspond, and which faults of the first execution end the comparison. Two
actions are in step (`InStep`) if, from states that correspond, both succeed or both fail alike and
the states still correspond, unless the first one ended in such a fault.

Being in step is kept by doing one thing after the other (`InStep.bind`). So a comparison that
the few actions keep which native words are made of (`Lawful`) is kept by the words, by tokens at
any depth (`Lawful.expand`) and by whole lines (`Lawful.evalLine`). The limit of the second
execution may be the higher one, if the comparison ends where the first one finds a word too deep.
-/

namespace Forth

structure Comparison where
  /-- The states correspond to each other. -/
  Related : State → State → Prop
  /-- After such a fault of the first execution nothing is asked of the second. -/
  Excused : Fault → Prop

namespace Comparison

variable {α β : Type}

/-- Two executions went alike, or the first is excused. -/
inductive Agree (c : Comparison) :
    EStateM.Result Fault State α → EStateM.Result Fault State α → Prop where
  | ok (a : α) {s s' : State} (related : c.Related s s') : Agree c (.ok a s) (.ok a s')
  | error (fault : Fault) {s s' : State} (related : c.Related s s') :
      Agree c (.error fault s) (.error fault s')
  | excused {fault : Fault} (excused : c.Excused fault) (s : State)
      (result : EStateM.Result Fault State α) : Agree c (.error fault s) result

/-- From states that correspond, the two actions go alike. -/
def InStep (c : Comparison) (act act' : Action α) : Prop :=
  ∀ s s', c.Related s s' → c.Agree (act s) (act' s')

variable {c : Comparison} {act act' : Action α} {next next' : α → Action β}

theorem InStep.pure (a : α) : c.InStep (pure a) (pure a) := fun _ _ related => .ok a related

theorem InStep.throw (fault : Fault) : c.InStep (throw fault : Action α) (throw fault) :=
  fun _ _ related => .error fault related

theorem InStep.bind (first : c.InStep act act') (later : ∀ a, c.InStep (next a) (next' a)) :
    c.InStep (act >>= next) (act' >>= next') := by
  intro s s' related
  have agree := first s s' related
  generalize did : act s = result, did' : act' s' = result' at agree
  cases agree with
  | ok a related =>
    rw [Action.bind_of_ok did, Action.bind_of_ok did']
    exact later a _ _ related
  | error fault related =>
    rw [Action.bind_of_error did, Action.bind_of_error did']
    exact .error fault related
  | excused excused s₁ _ =>
    rw [Action.bind_of_error did]
    exact .excused excused s₁ _

/-- What a comparison has to keep, to be kept by everything: the status, and the actions that native
words are made of. A word of two operands finds them in both executions or in neither, unless the
first one is excused. -/
structure Lawful (c : Comparison) : Prop where
  isShutdown : ∀ {s s'}, c.Related s s' → s'.isShutdown = s.isShutdown
  size : ∀ {s s'}, c.Related s s' →
    s'.ints.size = s.ints.size ∨ s.ints.size ≤ s'.ints.size ∧ ∀ n, c.Excused (.tooFewItems 2 n)
  pop : c.InStep Action.pop Action.pop
  push : ∀ n, c.InStep (Action.push n) (Action.push n)
  report : ∀ n, c.InStep (Action.report (.integer n)) (Action.report (.integer n))
  summary : c.InStep Native.dotS.apply Native.dotS.apply
  shutdown : c.InStep Action.shutdown Action.shutdown

namespace Lawful

theorem unary (h : c.Lawful) (f : Int64 → Int64) : c.InStep (Native.unary f) (Native.unary f) :=
  h.pop.bind fun n => h.push (f n)

theorem takeTwo (h : c.Lawful) (f : Int64 → Int64 → Except Fault Int64) :
    c.InStep (Native.takeTwo f) (Native.takeTwo f) := by
  refine h.pop.bind fun right => h.pop.bind fun left => ?_
  cases f left right with
  | ok n => exact h.push n
  | error fault => exact .throw fault

theorem binary (h : c.Lawful) (f : Int64 → Int64 → Except Fault Int64) :
    c.InStep (Native.binary f) (Native.binary f) := by
  intro s s' related
  by_cases short : s.ints.size < 2
  · rw [Native.binary_of_short short]
    rcases h.size related with same | ⟨-, excused⟩
    · rw [Native.binary_of_short (same ▸ short), same]
      exact .error _ related
    · exact .excused (excused _) s _
  · have long : ¬ s'.ints.size < 2 := by
      rcases h.size related with same | ⟨le, -⟩ <;> omega
    rw [Native.binary_of_enough short, Native.binary_of_enough long]
    exact h.takeTwo f s s' related

theorem apply (h : c.Lawful) (w : Native) : c.InStep w.apply w.apply := by
  cases w with
  | bye => exact h.shutdown
  | dot => exact h.pop.bind h.report
  | dotS => exact h.summary
  | negate => exact h.unary _
  | abs => exact h.unary _
  | add | sub | mul | div | mod =>
    rw [Native.apply]
    exact h.binary _

theorem inOrder (h : c.Lawful) {act act' : Token → Action Unit} {ts : List Token}
    (each : ∀ t ∈ ts, c.InStep (act t) (act' t)) :
    c.InStep (Execution.inOrder act ts) (Execution.inOrder act' ts) := by
  induction ts with
  | nil => exact .pure ()
  | cons t ts ih =>
    intro s s' related
    have same := h.isShutdown related
    cases shut : s.isShutdown with
    | true =>
      rw [Execution.inOrder_of_shutdown shut, Execution.inOrder_of_shutdown (same.trans shut)]
      exact .ok () related
    | false =>
      rw [Execution.inOrder_cons shut, Execution.inOrder_cons (same.trans shut)]
      have first := each t List.mem_cons_self
      have rest := ih fun u member => each u (List.mem_cons_of_mem t member)
      exact first.bind (fun _ => rest) s s' related

/-- A token goes alike in both executions, at whatever depth. Where only the lower limit stops a
word, the comparison has to end. -/
theorem expand (h : c.Lawful) (d : Dictionary) {limit limit' : Nat} (le : limit ≤ limit')
    (guard : limit = limit' ∨ ∀ word, c.Excused (.tooDeep word limit)) (depth : Nat) (t : Token) :
    c.InStep (Execution.expand d limit depth t) (Execution.expand d limit' depth t) := by
  induction depth, t using Execution.expand.induct d limit with
  | case1 depth t n stands =>
    rw [Execution.expand_of_number stands, Execution.expand_of_number stands]
    exact h.push n
  | case2 depth t w stands =>
    rw [Execution.expand_of_native stands, Execution.expand_of_native stands]
    exact h.apply w
  | case3 depth t w stands deep =>
    rw [Execution.expand_of_too_deep stands deep]
    rcases guard with rfl | excused
    · rw [Execution.expand_of_too_deep stands deep]
      exact .throw _
    · exact fun s _ _ => .excused (excused w.name) s _
  | case4 depth t w stands shallow ih =>
    have shallow := Nat.lt_of_not_le shallow
    rw [Execution.expand_of_composite stands shallow,
      Execution.expand_of_composite stands (shallow.trans_le le)]
    exact h.inOrder fun u _ => ih u
  | case5 depth t fault stands =>
    rw [Execution.expand_of_fault stands, Execution.expand_of_fault stands]
    exact .throw fault

end Lawful

/-- Two lines ended alike that left these states, before their values are forgotten. -/
inductive SameEnd (s s' : State) : Outcome → Outcome → Prop where
  | completed : SameEnd s s' (.completed s.value) (.completed s'.value)
  | failed (fault : Fault) : SameEnd s s' (.failed fault) (.failed fault)
  | shutdown : SameEnd s s' .shutdown .shutdown

/-- A line goes alike in two sessions that differ only in what is compared, unless the first one
fails in a way that ends the comparison. -/
theorem Lawful.evalLine (h : c.Lawful) (i j : Interpreter) {line : String}
    (words : j.dictionary = i.dictionary) (mode : j.split = i.split)
    (le : i.maxDepth ≤ j.maxDepth)
    (guard : i.maxDepth = j.maxDepth ∨ ∀ word, c.Excused (.tooDeep word i.maxDepth))
    (running : i.state.status = .running) (related : c.Related i.state j.state)
    (nonempty : line ≠ "") :
    (∃ fault, c.Excused fault ∧ (i.evalLine line).1 = .failed fault) ∨
      ∃ s s' outcome outcome', c.Related s s' ∧ SameEnd s s' outcome outcome' ∧
        i.evalLine line = (outcome, { i with state := s }.clearValue) ∧
        j.evalLine line = (outcome', { j with state := s' }.clearValue) := by
  have running' : j.state.status = .running := by
    rw [← State.isShutdown_eq_false_iff] at running ⊢
    exact (h.isShutdown related).trans running
  have tokens : j.tokensOf line = i.tokensOf line := by
    rw [Interpreter.tokensOf, Interpreter.tokensOf, mode]
  have agree : c.Agree (i.lineAction line i.state) (j.lineAction line j.state) := by
    rw [Interpreter.lineAction, Interpreter.lineAction, words, tokens]
    exact h.inOrder (fun t _ => h.expand i.dictionary le guard 0 t) _ _ related
  rw [Interpreter.evalLine_eq_finish running nonempty,
    Interpreter.evalLine_eq_finish running' nonempty]
  generalize did : i.lineAction line i.state = result,
    did' : j.lineAction line j.state = result' at agree
  cases agree with
  | @ok _ s s' related =>
    rw [Interpreter.finish_ok, Interpreter.finish_ok, h.isShutdown related]
    refine .inr ⟨s, s', _, _, related, ?_, rfl, rfl⟩
    cases s.isShutdown with
    | true => exact .shutdown
    | false => exact .completed
  | @error fault s s' related =>
    have goesOn := Interpreter.running_of_lineAction_error running did
    rw [Interpreter.finish_error, Interpreter.finish_error, h.isShutdown related, goesOn]
    exact .inr ⟨s, s', _, _, related, .failed fault, rfl, rfl⟩
  | @excused fault excused s _ =>
    have goesOn := Interpreter.running_of_lineAction_error running did
    rw [Interpreter.finish_error, goesOn]
    exact .inl ⟨fault, excused, rfl⟩

end Comparison

end Forth

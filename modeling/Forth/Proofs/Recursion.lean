import Forth.Interpreter

/-!
# Execution as recursion

`expand` says what a token does without any frames: a composite word has the tokens of its
body executed in order, one level deeper, and a token met at the limit may not expand. This is
the reading that every statement about meaning starts from.

Frames are what is left of such a recursion. `resume` reads a stack of them as the calls that
still have to return, and a step of execution does not change that reading (`resume_of_step`).
So executing a token and expanding it are the same action (`execute_eq_expand`), whatever the
dictionary holds and however the session stands.
-/

namespace Forth

namespace Frame

/-- The tokens of the body that are still to come. -/
def rest (f : Frame) : List Token := f.word.tokens.toList.drop f.next

@[simp] theorem rest_start (w : Composite) : (start w).rest = w.tokens.toList := rfl

theorem rest_of_token? {f : Frame} {t : Token} (h : f.token? = some t) :
    f.rest = t :: f.advance.rest := by
  obtain ⟨inside, rfl⟩ := Array.getElem?_eq_some_iff.1 h
  exact List.drop_eq_getElem_cons inside

theorem rest_of_token?_eq_none {f : Frame} (h : f.token? = none) : f.rest = [] :=
  List.drop_eq_nil_of_le (Array.getElem?_eq_none_iff.1 h)

end Frame

namespace Execution

/-- Lets the tokens act in order, up to the first fault. Once the session is over, the tokens
that are left do nothing. -/
def inOrder (act : Token → Action Unit) : List Token → Action Unit
  | [] => pure ()
  | t :: ts => do
    unless (← get).isShutdown do
      act t
      inOrder act ts

/-- What a token does when `depth` composite words are under way. -/
def expand (d : Dictionary) (limit depth : Nat) (t : Token) : Action Unit :=
  match d.meaning t with
  | .number n => Action.push n
  | .native w => w.apply
  | .composite w =>
    if limit ≤ depth then throw (.tooDeep w.name limit)
    else inOrder (expand d limit (depth + 1)) w.tokens.toList
  | .fault fault => throw fault
termination_by limit - depth

/-! ## Tokens in order -/

section

variable {act act' : Token → Action Unit} {t : Token} {ts us : List Token} {s s' : State}

@[simp] theorem inOrder_nil : inOrder act [] s = .ok () s := rfl

theorem inOrder_of_shutdown (h : s.isShutdown = true) : inOrder act ts s = .ok () s := by
  cases ts with
  | nil => rfl
  | cons t ts =>
    change (if s.isShutdown then (pure () : Action Unit) else _) s = _
    rw [if_pos h]
    rfl

theorem inOrder_cons (h : s.isShutdown = false) :
    inOrder act (t :: ts) s = (act t >>= fun _ => inOrder act ts) s := by
  change (if s.isShutdown then (pure () : Action Unit) else _) s = _
  rw [if_neg (by simp [h])]

/-- Tokens in order can be cut anywhere: after a shutdown neither part does anything. -/
theorem inOrder_append :
    inOrder act (ts ++ us) s = (inOrder act ts >>= fun _ => inOrder act us) s := by
  induction ts generalizing s with
  | nil => rfl
  | cons t ts ih =>
    cases shut : s.isShutdown with
    | true =>
      rw [inOrder_of_shutdown shut, Action.bind_of_ok (inOrder_of_shutdown shut),
        inOrder_of_shutdown shut]
    | false =>
      rw [List.cons_append, inOrder_cons shut, Action.bind_congr (inOrder_cons shut), bind_assoc]
      cases h : act t s with
      | ok _ s' => rw [Action.bind_of_ok h, Action.bind_of_ok h, ih]
      | error fault s' => rw [Action.bind_of_error h, Action.bind_of_error h]

/-- A fault of tokens in order is the fault of one of them. -/
theorem exists_of_inOrder_error {fault : Fault} (h : inOrder act ts s = .error fault s') :
    ∃ t ∈ ts, ∃ s₁, s₁.isShutdown = false ∧ act t s₁ = .error fault s' := by
  induction ts generalizing s with
  | nil => injection h
  | cons t ts ih =>
    cases shut : s.isShutdown with
    | true =>
      rw [inOrder_of_shutdown shut] at h
      injection h
    | false =>
      rw [inOrder_cons shut] at h
      cases first : act t s with
      | ok _ s₁ =>
        rw [Action.bind_of_ok first] at h
        obtain ⟨u, member, failed⟩ := ih h
        exact ⟨u, List.mem_cons_of_mem t member, failed⟩
      | error cause s₁ =>
        rw [Action.bind_of_error first] at h
        exact ⟨t, List.mem_cons_self, s, shut, first.trans h⟩

/-- A session that goes on after tokens in order was not over before them. -/
theorem running_of_inOrder_ok (h : inOrder act ts s = .ok () s')
    (running : s'.isShutdown = false) : s.isShutdown = false := by
  cases shut : s.isShutdown with
  | false => rfl
  | true =>
    rw [inOrder_of_shutdown shut] at h
    injection h with _ same
    rw [← shut, same, running]

/-- Where the session goes on after tokens in order, each of them succeeded and left it so. -/
theorem forall_of_inOrder_ok (h : inOrder act ts s = .ok () s')
    (running : s'.isShutdown = false) :
    ∀ t ∈ ts, ∃ s₁ s₂, act t s₁ = .ok () s₂ ∧ s₂.isShutdown = false := by
  induction ts generalizing s with
  | nil =>
    intro t member
    cases member
  | cons t ts ih =>
    rw [inOrder_cons (running_of_inOrder_ok h running)] at h
    cases first : act t s with
    | error cause s₁ =>
      rw [Action.bind_of_error first] at h
      injection h
    | ok _ s₁ =>
      rw [Action.bind_of_ok first] at h
      intro u member
      rcases List.mem_cons.1 member with rfl | member
      · exact ⟨s, s₁, first, running_of_inOrder_ok h running⟩
      · exact ih h u member

end

/-! ## What a token does, by what it stands for -/

section

variable {d : Dictionary} {limit depth : Nat} {t : Token} {s : State}

theorem expand_of_number {n : Int64} (h : d.meaning t = .number n) :
    expand d limit depth t = Action.push n := by
  rw [expand, h]

theorem expand_of_native {w : Native} (h : d.meaning t = .native w) :
    expand d limit depth t = w.apply := by
  rw [expand, h]

theorem expand_of_fault {fault : Fault} (h : d.meaning t = .fault fault) :
    expand d limit depth t = throw fault := by
  rw [expand, h]

theorem expand_of_composite {w : Composite} (h : d.meaning t = .composite w)
    (shallow : depth < limit) :
    expand d limit depth t = inOrder (expand d limit (depth + 1)) w.tokens.toList := by
  rw [expand, h]
  exact if_neg (Nat.not_le_of_lt shallow)

theorem expand_of_too_deep {w : Composite} (h : d.meaning t = .composite w)
    (deep : limit ≤ depth) : expand d limit depth t = throw (.tooDeep w.name limit) := by
  rw [expand, h]
  exact if_pos deep

end

/-! ## Frames as calls under way -/

section

variable {d : Dictionary} {limit : Nat}

/-- What the frames, top first, still have to do: each executes the rest of its body at its own
depth and then returns to the frame below. -/
def resume (d : Dictionary) (limit : Nat) : List Frame → Action Unit
  | [] => pure ()
  | f :: fs => do
    inOrder (expand d limit (fs.length + 1)) f.rest
    resume d limit fs

theorem resume_of_shutdown {s : State} (h : s.isShutdown = true) (fs : List Frame) :
    resume d limit fs s = .ok () s := by
  induction fs with
  | nil => rfl
  | cons f fs ih => rw [resume, Action.bind_of_ok (inOrder_of_shutdown h), ih]

/-- Dispatching a token and going on is expanding it and going on. A composite word is under
way in the first case and done in the second. -/
theorem resume_dispatch (t : Token) (frames : Stack Frame) :
    (dispatch d limit t frames >>= fun after => resume d limit after.toList) =
      (expand d limit frames.size t >>= fun _ => resume d limit frames.toList) := by
  unfold dispatch
  cases h : d.meaning t with
  | number n => simp only [expand_of_number h, bind_assoc, pure_bind]
  | native w => simp only [expand_of_native h, bind_assoc, pure_bind]
  | composite w =>
    by_cases deep : limit ≤ frames.size
    · simp only [expand_of_too_deep h deep, if_pos deep]
      rfl
    · simp only [expand_of_composite h (Nat.lt_of_not_le deep), if_neg deep, pure_bind,
        Stack.toList_push, resume, Frame.rest_start, ← frames.size_eq]
  | fault fault =>
    simp only [expand_of_fault h]
    rfl

/-- A frame whose next token is `t` expands `t` and then resumes without it. -/
theorem resume_of_token? {f : Frame} {fs : List Frame} {t : Token} {s : State}
    (running : s.isShutdown = false) (h : f.token? = some t) :
    resume d limit (f :: fs) s =
      (expand d limit (fs.length + 1) t >>= fun _ => resume d limit (f.advance :: fs)) s := by
  rw [resume, Frame.rest_of_token? h, Action.bind_congr (inOrder_cons running), bind_assoc]
  rfl

/-- A step changes the frames and the state, but not what comes of them. -/
theorem resume_of_step (frames : Stack Frame) (s : State) :
    resume d limit frames.toList s =
      match step d limit frames s with
      | none => .ok () s
      | some (.ok frames s) => resume d limit frames.toList s
      | some (.error fault s) => .error fault s := by
  cases popped : frames.pop? with
  | none =>
    rw [step_of_pop?_eq_none popped, (Stack.pop?_eq_none_iff frames).1 popped]
    rfl
  | some top =>
    obtain ⟨f, below⟩ := top
    rw [Stack.toList_of_pop? popped]
    cases shut : s.isShutdown with
    | true => rw [step_of_shutdown shut, resume_of_shutdown shut]
    | false =>
      cases next : f.token? with
      | none =>
        rw [step_of_token?_eq_none popped shut next, resume, Frame.rest_of_token?_eq_none next,
          Action.bind_of_ok inOrder_nil]
      | some t =>
        have deeper : below.toList.length + 1 = (below.push f.advance).size := by
          rw [Stack.size_push, below.size_eq]
        rw [step_of_token? popped shut next, resume_of_token? shut next, deeper,
          ← Stack.toList_push, ← resume_dispatch]
        cases result : dispatch d limit t (below.push f.advance) s with
        | ok after s' => rw [Action.bind_of_ok result]
        | error fault s' => rw [Action.bind_of_error result]

/-- Running the frames to the end is resuming them. -/
theorem run_eq_resume (frames : Stack Frame) (s : State) :
    run d limit frames s = resume d limit frames.toList s := by
  induction frames, s using run.induct d limit with
  | case1 frames s ended => rw [run_of_step_eq_none ended, resume_of_step, ended]
  | case2 frames s frames' s' stepped ih =>
    rw [run_of_step_ok stepped, ih, resume_of_step frames, stepped]
  | case3 frames s fault s' failed => rw [run_of_step_error failed, resume_of_step, failed]

/-- Executing a token is expanding it with no word under way. -/
theorem execute_eq_expand (d : Dictionary) (limit : Nat) (t : Token) :
    execute d limit t = expand d limit 0 t := by
  have resumed : run d limit = fun frames => resume d limit frames.toList := by
    funext frames s
    exact run_eq_resume frames s
  calc execute d limit t
      = (dispatch d limit t .empty >>= fun after => resume d limit after.toList) := by
        rw [execute, resumed]
    _ = (expand d limit 0 t >>= fun _ => resume d limit []) := resume_dispatch t .empty
    _ = expand d limit 0 t := bind_pure_unit

end

end Execution

namespace Interpreter

theorem execute_of_expand_ok {i : Interpreter} {t : Token} {s : State}
    (h : Execution.expand i.dictionary i.maxDepth 0 t i.state = .ok () s) :
    i.execute t = (.ok (), { i with state := s }) := by
  rw [execute, Execution.execute_eq_expand, h]

theorem execute_of_expand_error {i : Interpreter} {t : Token} {s : State} {fault : Fault}
    (h : Execution.expand i.dictionary i.maxDepth 0 t i.state = .error fault s) :
    i.execute t = (.error fault, { i with state := s }) := by
  rw [execute, Execution.execute_eq_expand, h]

/-- The loop over frames and the recursion over bodies agree on the answer and on the state that
they leave, fault or not, session over or not. -/
theorem execute_as_recursion (i : Interpreter) (t : Token) :
    i.execute t =
      match Execution.expand i.dictionary i.maxDepth 0 t i.state with
      | .ok _ s => (.ok (), { i with state := s })
      | .error fault s => (.error fault, { i with state := s }) := by
  cases result : Execution.expand i.dictionary i.maxDepth 0 t i.state with
  | ok _ s => exact execute_of_expand_ok result
  | error fault s => exact execute_of_expand_error result

theorem execute_of_number {i : Interpreter} {t : Token} {n : Int64}
    (stands : i.dictionary.meaning t = .number n) :
    i.execute t = (.ok (), { i with state := i.state.push n }) :=
  execute_of_expand_ok (congrFun (Execution.expand_of_number stands) i.state)

theorem execute_of_fault {i : Interpreter} {t : Token} {fault : Fault}
    (stands : i.dictionary.meaning t = .fault fault) : i.execute t = (.error fault, i) :=
  execute_of_expand_error (congrFun (Execution.expand_of_fault stands) i.state)

theorem expand_of_execute_ok {i : Interpreter} {t : Token} (h : (i.execute t).1 = .ok ()) :
    Execution.expand i.dictionary i.maxDepth 0 t i.state = .ok () (i.execute t).2.state := by
  cases result : Execution.expand i.dictionary i.maxDepth 0 t i.state with
  | ok _ s => rw [execute_of_expand_ok result]
  | error fault s =>
    rw [execute_of_expand_error result] at h
    injection h

theorem expand_of_execute_error {i : Interpreter} {t : Token} {fault : Fault}
    (h : (i.execute t).1 = .error fault) :
    ∃ s, Execution.expand i.dictionary i.maxDepth 0 t i.state = .error fault s := by
  cases result : Execution.expand i.dictionary i.maxDepth 0 t i.state with
  | ok _ s =>
    rw [execute_of_expand_ok result] at h
    injection h
  | error cause s =>
    rw [execute_of_expand_error result] at h
    injection h with same
    exact ⟨s, same ▸ rfl⟩

/-! ## Lines -/

/-- How a line ends whose tokens came to the given result, and the interpreter after it. The end
of the session is looked at before a fault. -/
def conclude (i : Interpreter) : EStateM.Result Fault State Unit → Outcome × Interpreter
  | .ok _ s =>
    (if s.isShutdown then .shutdown else .completed s.value, { i with state := s })
  | .error fault s =>
    (if s.isShutdown then .shutdown else .failed fault, { i with state := s })

/-- What is concluded depends on nothing of the interpreter but what the tokens came to. -/
theorem conclude_congr (i j : Interpreter) (result : EStateM.Result Fault State Unit) :
    (i.conclude result).1 = (j.conclude result).1 ∧
      (i.conclude result).2.state = (j.conclude result).2.state := by
  cases result with
  | ok _ s => exact ⟨rfl, rfl⟩
  | error fault s => exact ⟨rfl, rfl⟩

/-- The tokens of a line are executed as the tokens of a body are, at depth zero. -/
theorem evalTokens_eq_conclude (i : Interpreter) (ts : List Token)
    (running : i.state.isShutdown = false) :
    i.evalTokens ts =
      i.conclude (Execution.inOrder (Execution.expand i.dictionary i.maxDepth 0) ts i.state) := by
  induction ts generalizing i with
  | nil => simp [evalTokens, conclude, running]
  | cons t ts ih =>
    rw [evalTokens, Execution.inOrder_cons running]
    cases result : Execution.expand i.dictionary i.maxDepth 0 t i.state with
    | error fault s =>
      rw [execute_of_expand_error result, Action.bind_of_error result]
      cases shut : s.isShutdown <;> simp [conclude, shut]
    | ok _ s =>
      rw [execute_of_expand_ok result, Action.bind_of_ok result]
      cases shut : s.isShutdown with
      | true => simp [conclude, Execution.inOrder_of_shutdown shut, shut]
      | false =>
        simp only [shut, Bool.false_eq_true, if_false]
        exact ih { i with state := s } shut

theorem evalLine_of_ne_empty {i : Interpreter} {line : String} (nonempty : line ≠ "") :
    i.evalLine line =
      ((i.evalTokens (i.split.split line)).1,
        (i.evalTokens (i.split.split line)).2.clearValue) := by
  have full : line.isEmpty = false := by simpa using nonempty
  rw [evalLine, full]
  rfl

end Interpreter

end Forth

import Forth.Dictionary
import Forth.Native.Action

/-!
# Steps of execution

A composite word is executed by executing the tokens of its body in order. The words whose
bodies are under way stand on a stack of frames, the innermost on top, and their number is
the depth of nesting; a word that would nest deeper than the limit is a fault.

`dispatch` is what one token does. It either leaves the frames alone or puts one on top, and
only for a token that stands for a composite word (`frames_of_dispatch`). `step` finds the
next token and dispatches it; a word whose body is used up is taken off by a step of its own
(`exists_of_step`).
-/

namespace Forth

/-- A composite word under way, and the index of the token of its body that comes next. -/
structure Frame where
  word : Composite
  next : Nat
  deriving DecidableEq

namespace Frame

def start (w : Composite) : Frame := ⟨w, 0⟩

def token? (f : Frame) : Option Token := f.word.tokens[f.next]?

def advance (f : Frame) : Frame := { f with next := f.next + 1 }

@[simp] theorem word_start (w : Composite) : (start w).word = w := rfl

@[simp] theorem next_start (w : Composite) : (start w).next = 0 := rfl

@[simp] theorem word_advance (f : Frame) : f.advance.word = f.word := rfl

@[simp] theorem next_advance (f : Frame) : f.advance.next = f.next + 1 := rfl

end Frame

namespace Execution

/-- What a token does under the given frames. The answer is the frames after it. -/
def dispatch (d : Dictionary) (limit : Nat) (t : Token) (frames : Stack Frame) :
    Action (Stack Frame) :=
  match d.meaning t with
  | .number n => do
    Action.push n
    return frames
  | .native w => do
    w.apply
    return frames
  | .composite w =>
    if limit ≤ frames.size then throw (.tooDeep w.name limit) else return frames.push (.start w)
  | .fault fault => throw fault

/-- One step, or nothing if execution has ended: no frame is left, or the session is over. -/
def step (d : Dictionary) (limit : Nat) (frames : Stack Frame) (s : State) :
    Option (EStateM.Result Fault State (Stack Frame)) :=
  match frames.pop? with
  | none => none
  | some (f, below) =>
    if s.isShutdown then none
    else match f.token? with
      | none => some (.ok below s)
      | some t => some (dispatch d limit t (below.push f.advance) s)

/-! ## What a token does, by what it stands for -/

section

variable {d : Dictionary} {limit : Nat} {t : Token} {frames : Stack Frame} {s : State}

theorem dispatch_of_number {n : Int64} (h : d.meaning t = .number n) :
    dispatch d limit t frames s = .ok frames (s.push n) := by
  rw [dispatch, h]
  rfl

theorem dispatch_of_native {w : Native} (h : d.meaning t = .native w) :
    dispatch d limit t frames s =
      match w.apply s with
      | .ok _ s => .ok frames s
      | .error fault s => .error fault s := by
  rw [dispatch, h]
  simp only [bind, EStateM.bind]
  cases w.apply s <;> rfl

theorem dispatch_of_composite {w : Composite} (h : d.meaning t = .composite w) :
    dispatch d limit t frames s =
      if limit ≤ frames.size then .error (.tooDeep w.name limit) s
      else .ok (frames.push (.start w)) s := by
  rw [dispatch, h]
  split <;> rfl

theorem dispatch_of_fault {fault : Fault} (h : d.meaning t = .fault fault) :
    dispatch d limit t frames s = .error fault s := by
  rw [dispatch, h]
  rfl

/-- A token leaves the frames alone, or puts the word that it stands for on top. -/
theorem frames_of_dispatch {frames' : Stack Frame} {s' : State}
    (h : dispatch d limit t frames s = .ok frames' s') :
    frames' = frames ∨
      ∃ w, d.meaning t = .composite w ∧ frames.size < limit ∧ frames' = frames.push (.start w) := by
  cases hm : d.meaning t with
  | number n =>
    rw [dispatch_of_number hm] at h
    injection h with h
    exact .inl h.symm
  | native w =>
    rw [dispatch_of_native hm] at h
    cases hw : w.apply s with
    | ok _ s =>
      rw [hw] at h
      injection h with h
      exact .inl h.symm
    | error fault s =>
      rw [hw] at h
      injection h
  | composite w =>
    rw [dispatch_of_composite hm] at h
    split at h
    · injection h
    · next deeper =>
      injection h with h
      exact .inr ⟨w, rfl, Nat.lt_of_not_le deeper, h.symm⟩
  | fault fault =>
    rw [dispatch_of_fault hm] at h
    injection h

/-! ## What a step does, by the frame on top -/

variable {f : Frame} {below : Stack Frame}

theorem step_of_pop?_eq_none (h : frames.pop? = none) : step d limit frames s = none := by
  rw [step, h]

theorem step_of_shutdown (h : s.isShutdown = true) : step d limit frames s = none := by
  rw [step]
  cases frames.pop? with
  | none => rfl
  | some popped => exact if_pos h

theorem step_of_token?_eq_none (popped : frames.pop? = some (f, below))
    (running : s.isShutdown = false) (finished : f.token? = none) :
    step d limit frames s = some (.ok below s) := by
  simp only [step, popped, running, finished, Bool.false_eq_true, if_false]

theorem step_of_token? (popped : frames.pop? = some (f, below)) (running : s.isShutdown = false)
    (next : f.token? = some t) :
    step d limit frames s = some (dispatch d limit t (below.push f.advance) s) := by
  simp only [step, popped, running, next, Bool.false_eq_true, if_false]

/-- A step takes the top frame off, its body being used up, or dispatches the next token of that
body. -/
theorem exists_of_step {result : EStateM.Result Fault State (Stack Frame)}
    (h : step d limit frames s = some result) :
    ∃ f below, frames.pop? = some (f, below) ∧ s.isShutdown = false ∧
      (f.token? = none ∧ result = .ok below s ∨
        ∃ t, f.token? = some t ∧ result = dispatch d limit t (below.push f.advance) s) := by
  cases popped : frames.pop? with
  | none =>
    rw [step_of_pop?_eq_none popped] at h
    cases h
  | some top =>
    obtain ⟨f, below⟩ := top
    cases shut : s.isShutdown with
    | true =>
      rw [step_of_shutdown shut] at h
      cases h
    | false =>
      refine ⟨f, below, rfl, rfl, ?_⟩
      cases next : f.token? with
      | none =>
        rw [step_of_token?_eq_none popped shut next] at h
        injection h with same
        exact .inl ⟨rfl, same.symm⟩
      | some t =>
        rw [step_of_token? popped shut next] at h
        injection h with same
        exact .inr ⟨t, rfl, same.symm⟩

theorem cases_of_step {frames' : Stack Frame} {s' : State}
    (h : step d limit frames s = some (.ok frames' s')) :
    ∃ f below, frames.pop? = some (f, below) ∧ s.isShutdown = false ∧
      (f.token? = none ∧ frames' = below ∧ s' = s ∨
        ∃ t, f.token? = some t ∧ dispatch d limit t (below.push f.advance) s = .ok frames' s') := by
  obtain ⟨f, below, popped, running, ⟨finished, same⟩ | ⟨t, next, same⟩⟩ := exists_of_step h
  · injection same with left kept
    exact ⟨f, below, popped, running, .inl ⟨finished, left, kept⟩⟩
  · exact ⟨f, below, popped, running, .inr ⟨t, next, same.symm⟩⟩

/-- A step fails by the token that it dispatches. -/
theorem cases_of_step_error {fault : Fault} {s' : State}
    (h : step d limit frames s = some (.error fault s')) :
    ∃ f below t, frames.pop? = some (f, below) ∧ f.token? = some t ∧
      dispatch d limit t (below.push f.advance) s = .error fault s' := by
  obtain ⟨f, below, popped, -, ⟨-, same⟩ | ⟨t, next, same⟩⟩ := exists_of_step h
  · injection same
  · exact ⟨f, below, t, popped, next, same.symm⟩

end

end Execution

end Forth

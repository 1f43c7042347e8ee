import Mathlib.Data.List.Chain
import Forth.Proofs.Recursion

/-!
# The frames as a chain of calls

The heads of the loop are the frames and states between two steps (`LoopHead`), from the
dispatch of the executed token on. At every one of them the frames form a `CallChain`: the
bottom frame is the word of the executed token, and each other frame is the word of the token
that was last taken from the frame below it. What keeps the chain is said once for each thing
that a step does to the frames: taking the top one off, advancing it, and putting one on.

No step leads back to a head of greater weight, so the loop comes to an end from anywhere, and
what it ends with is what executing the token answers.
-/

namespace Forth

/-- The frame above is the word of the token that was last taken from the frame below. -/
def Frame.Calls (d : Dictionary) (below above : Frame) : Prop :=
  0 < below.next ∧
    ∃ u, below.word.tokens[below.next - 1]? = some u ∧ d.meaning u = .composite above.word

namespace Execution

/-- What can be said of the frames while a token is executed. -/
structure CallChain (d : Dictionary) (limit : Nat) (t : Token) (frames : List Frame) : Prop where
  length_le : frames.length ≤ limit
  next_le : ∀ f ∈ frames, f.next ≤ f.word.tokens.size
  bottom : ∀ f, frames.getLast? = some f → d.meaning t = .composite f.word
  calls : frames.IsChain fun above below => below.Calls d above

/-- The heads that the loop comes to when a token is executed in the state `s₀`. -/
inductive LoopHead (d : Dictionary) (limit : Nat) (t : Token) (s₀ : State) :
    Stack Frame → State → Prop where
  | first {frames : Stack Frame} {s : State} (h : dispatch d limit t .empty s₀ = .ok frames s) :
      LoopHead d limit t s₀ frames s
  | next {frames frames' : Stack Frame} {s s' : State} (head : LoopHead d limit t s₀ frames s)
      (h : step d limit frames s = some (.ok frames' s')) : LoopHead d limit t s₀ frames' s'

/-- The loop stops at the given head, with the given result. -/
def StopsWith (d : Dictionary) (limit : Nat) (frames : Stack Frame) (s : State) :
    EStateM.Result Fault State Unit → Prop
  | .ok _ s' => step d limit frames s = none ∧ s' = s
  | .error fault s' => step d limit frames s = some (.error fault s')

section

variable {d : Dictionary} {limit : Nat} {t : Token}

namespace CallChain

theorem nil : CallChain d limit t [] :=
  ⟨Nat.zero_le _, by simp, by simp, .nil⟩

theorem tail {f : Frame} {fs : List Frame} (chain : CallChain d limit t (f :: fs)) :
    CallChain d limit t fs := by
  refine ⟨Nat.le_of_succ_le chain.length_le, ?_, ?_, chain.calls.tail⟩
  · intro g member
    exact chain.next_le g (List.mem_cons_of_mem f member)
  · intro g last
    have same : (f :: fs).getLast? = some g := by
      rw [List.getLast?_cons, last]
      rfl
    exact chain.bottom g same

/-- A frame keeps its place when its next token is taken. -/
theorem advance {f : Frame} {fs : List Frame} {u : Token} (chain : CallChain d limit t (f :: fs))
    (taken : f.token? = some u) : CallChain d limit t (f.advance :: fs) := by
  refine ⟨chain.length_le, ?_, ?_, ?_⟩
  · intro g member
    rcases List.mem_cons.1 member with rfl | member
    · obtain ⟨inside, -⟩ := Array.getElem?_eq_some_iff.1 taken
      exact inside
    · exact chain.tail.next_le g member
  · intro g last
    cases fs with
    | nil =>
      obtain rfl : f.advance = g := by simpa using last
      exact chain.bottom f rfl
    | cons h fs =>
      rw [List.getLast?_cons_cons] at last
      exact chain.tail.bottom g last
  · cases fs with
    | nil => exact .singleton _
    | cons g fs =>
      obtain ⟨called, rest⟩ := List.isChain_cons_cons.1 chain.calls
      exact .cons_cons called rest

/-- The word of the token just taken goes on top. -/
theorem push {f : Frame} {fs : List Frame} {u : Token} {w : Composite}
    (chain : CallChain d limit t (f.advance :: fs)) (taken : f.token? = some u)
    (stands : d.meaning u = .composite w) (shallow : (f.advance :: fs).length < limit) :
    CallChain d limit t (.start w :: f.advance :: fs) := by
  refine ⟨shallow, ?_, ?_, .cons_cons ?_ chain.calls⟩
  · intro g member
    rcases List.mem_cons.1 member with rfl | member
    · exact Nat.zero_le _
    · exact chain.next_le g member
  · intro g last
    rw [List.getLast?_cons_cons] at last
    exact chain.bottom g last
  · exact ⟨Nat.succ_pos _, u, taken, stands⟩

/-- The first frame is the word of the executed token. -/
theorem of_dispatch {frames : Stack Frame} {s s' : State}
    (h : dispatch d limit t .empty s = .ok frames s') : CallChain d limit t frames.toList := by
  rcases frames_of_dispatch h with rfl | ⟨w, stands, shallow, rfl⟩
  · exact nil
  · refine ⟨shallow, ?_, ?_, .singleton _⟩
    · intro f member
      obtain rfl : f = .start w := by simpa using member
      exact Nat.zero_le _
    · intro f last
      obtain rfl : .start w = f := by simpa using last
      exact stands

/-- A step keeps the chain. -/
theorem of_step {frames frames' : Stack Frame} {s s' : State}
    (chain : CallChain d limit t frames.toList)
    (h : step d limit frames s = some (.ok frames' s')) : CallChain d limit t frames'.toList := by
  obtain ⟨f, below, popped, -, ⟨-, rfl, -⟩ | ⟨u, taken, dispatched⟩⟩ := cases_of_step h
  · rw [Stack.toList_of_pop? popped] at chain
    exact chain.tail
  · rw [Stack.toList_of_pop? popped] at chain
    have advanced := chain.advance taken
    rcases frames_of_dispatch dispatched with rfl | ⟨w, stands, shallow, rfl⟩
    · exact advanced
    · rw [Stack.size_eq] at shallow
      exact advanced.push taken stands shallow

end CallChain

theorem LoopHead.callChain {s₀ s : State} {frames : Stack Frame}
    (head : LoopHead d limit t s₀ frames s) : CallChain d limit t frames.toList := by
  induction head with
  | first h => exact .of_dispatch h
  | next _ h chain => exact chain.of_step h

/-- From any frames and state, reached or not, the loop takes finitely many steps only. -/
theorem wellFounded_step (d : Dictionary) (limit : Nat) :
    WellFounded fun after before : Stack Frame × State =>
      step d limit before.1 before.2 = some (.ok after.1 after.2) :=
  Subrelation.wf weight_lt_of_step
    (measure fun head : Stack Frame × State => weight d.longest limit head.1.toList).wf

/-- What `run` answers is what the loop stops with, at a head that it comes to. -/
theorem LoopHead.exists_stopsWith {s₀ s : State} {frames : Stack Frame}
    (head : LoopHead d limit t s₀ frames s) :
    ∃ frames' s', LoopHead d limit t s₀ frames' s' ∧
      StopsWith d limit frames' s' (run d limit frames s) := by
  induction frames, s using run.induct d limit with
  | case1 frames s ended =>
    refine ⟨frames, s, head, ?_⟩
    rw [run_of_step_eq_none ended]
    exact ⟨ended, rfl⟩
  | case2 frames s frames' s' stepped ih =>
    rw [run_of_step_ok stepped]
    exact ih (head.next stepped)
  | case3 frames s fault s' failed =>
    refine ⟨frames, s, head, ?_⟩
    rw [run_of_step_error failed]
    exact failed

/-- Executing a token ends, wherever it starts from: the loop has no infinite run, and the answer
is what it stops with at some head, unless the token itself fails. Until then the frames are a
chain of calls that is no longer than the limit. -/
theorem execute_ends_on_call_chain (d : Dictionary) (limit : Nat) (t : Token) (s₀ : State) :
    (WellFounded fun after before : Stack Frame × State =>
      step d limit before.1 before.2 = some (.ok after.1 after.2)) ∧
    ((∃ fault s, dispatch d limit t .empty s₀ = .error fault s ∧
        execute d limit t s₀ = .error fault s) ∨
      ∃ frames s, LoopHead d limit t s₀ frames s ∧
        StopsWith d limit frames s (execute d limit t s₀)) ∧
    ∀ frames s, LoopHead d limit t s₀ frames s → CallChain d limit t frames.toList := by
  refine ⟨wellFounded_step d limit, ?_, fun frames s head => head.callChain⟩
  cases first : dispatch d limit t .empty s₀ with
  | ok frames s =>
    rw [execute_of_dispatch_ok first]
    exact .inr (LoopHead.first first).exists_stopsWith
  | error fault s => exact .inl ⟨fault, s, rfl, execute_of_dispatch_error first⟩

/-- The first `double` of `quad` has been put on: its frame stands on one that is past it. -/
theorem callChain_quad :
    LoopHead (.ofList [.define "quad" "double double", .define "double" "2 *"]) 2 "quad" .initial
      (.ofList [.start (.define "double" "2 *"), ⟨.define "quad" "double double", 1⟩]) .initial ∧
    CallChain (.ofList [.define "quad" "double double", .define "double" "2 *"]) 2 "quad"
      [.start (.define "double" "2 *"), ⟨.define "quad" "double double", 1⟩] := by
  have head : LoopHead (.ofList [.define "quad" "double double", .define "double" "2 *"]) 2 "quad"
      .initial (.ofList [.start (.define "double" "2 *"), ⟨.define "quad" "double double", 1⟩])
      .initial := .next (.first rfl) rfl
  exact ⟨head, (execute_ends_on_call_chain _ _ _ _).2.2 _ _ head⟩

end

end Execution

end Forth

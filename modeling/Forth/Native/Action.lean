import Forth.State

/-!
# What the native words do

Integers have 64 bits in two's complement and every operation wraps around. Division
truncates towards zero. A word of two operands asks for both before it takes either, so a
stack that is too short stays as it is; both are gone when the divisor turns out to be zero.
-/

namespace Forth

/-- The absolute value, where the least integer is its own. The mask has all bits set for a
negative number and none otherwise, and adding it and flipping the bits under it negates
exactly in the first case. -/
def maskedAbs (n : Int64) : Int64 :=
  let mask := n >>> 63
  (n + mask) ^^^ mask

/-- The stack in one line: its size, and the items from the top down. -/
def Stack.summary (s : Stack Int64) : String :=
  let items :=
    if s.isEmpty then "" else "  Top-->" ++ ",".intercalate (s.toList.map toString)
  s!"<{s.size}>" ++ items

/-- The items from the top down, in brackets. -/
def Stack.listing (s : Stack Int64) : String :=
  "[" ++ ", ".intercalate (s.toList.map toString) ++ "]"

namespace Native

/-- Replaces the top item. -/
def unary (f : Int64 → Int64) : Action Unit := do
  let n ← Action.pop
  Action.push (f n)

/-- Replaces the two top items, of which the lower one is the left operand. -/
def binary (f : Int64 → Int64 → Except Fault Int64) : Action Unit := do
  let size := (← get).ints.size
  if size < 2 then throw (.tooFewItems 2 size)
  let right ← Action.pop
  let left ← Action.pop
  match f left right with
  | .ok n => Action.push n
  | .error fault => throw fault

/-- A division, where it is defined. The word that divides is named in the fault. -/
def divide (word : Native) (f : Int64 → Int64 → Int64) (left right : Int64) :
    Except Fault Int64 :=
  if right = 0 then .error (.divisionByZero word.name) else .ok (f left right)

def apply : Native → Action Unit
  | bye => Action.shutdown
  | dot => do Action.report (.integer (← Action.pop))
  | dotS => do Action.report (.text (← get).ints.summary)
  | add => binary fun left right => .ok (left + right)
  | sub => binary fun left right => .ok (left - right)
  | mul => binary fun left right => .ok (left * right)
  | div => binary (divide div (· / ·))
  | mod => binary (divide mod (· % ·))
  | negate => unary fun n => -n
  | abs => unary maskedAbs

section

variable {s s' : State} {left right n : Int64} {rest : List Int64}

theorem unary_of_nil {f : Int64 → Int64} (h : s.ints.toList = []) :
    unary f s = .error .emptyStack s := by
  rw [unary, Action.bind_of_error (Action.pop_of_nil h)]

theorem unary_of_cons {f : Int64 → Int64} (h : s.ints.toList = n :: rest) :
    unary f s = .ok () { s with ints := .ofList (f n :: rest) } := by
  rw [unary, Action.bind_of_ok (Action.pop_of_cons h)]
  rfl

/-- Nothing is taken from a stack that is too short. -/
theorem binary_of_short {f : Int64 → Int64 → Except Fault Int64} (h : s.ints.size < 2) :
    binary f s = .error (.tooFewItems 2 s.ints.size) s := by
  rw [binary, Action.bind_of_ok Action.get_run, if_pos h]
  rfl

/-- What a word of two operands does once it is known that they are there. -/
def takeTwo (f : Int64 → Int64 → Except Fault Int64) : Action Unit := do
  let right ← Action.pop
  let left ← Action.pop
  match f left right with
  | .ok n => Action.push n
  | .error fault => throw fault

theorem exists_two {items : List Int64} (enough : 2 ≤ items.length) :
    ∃ right left rest, items = right :: left :: rest := by
  match items with
  | [] | [_] => simp at enough
  | right :: left :: rest => exact ⟨right, left, rest, rfl⟩

theorem binary_of_enough {f : Int64 → Int64 → Except Fault Int64} (h : ¬ s.ints.size < 2) :
    binary f s = takeTwo f s := by
  rw [binary, Action.bind_of_ok Action.get_run, if_neg h, takeTwo]

theorem binary_of_two {f : Int64 → Int64 → Except Fault Int64}
    (h : s.ints.toList = right :: left :: rest) :
    binary f s =
      match f left right with
      | .ok n => .ok () { s with ints := .ofList (n :: rest) }
      | .error fault => .error fault { s with ints := .ofList rest } := by
  have enough : ¬ s.ints.size < 2 := by
    rw [s.ints.size_eq, h, List.length_cons, List.length_cons]
    omega
  rw [binary_of_enough enough, takeTwo, Action.bind_of_ok (Action.pop_of_cons h),
    Action.bind_of_ok (Action.pop_of_cons rfl)]
  cases f left right with
  | ok n => rfl
  | error fault => rfl

/-- A word of one operand touches nothing but the stack. -/
theorem after_unary (f : Int64 → Int64) (s : State) :
    ∃ ints, Action.after (unary f) s = { s with ints } := by
  cases items : s.ints.toList with
  | nil => exact ⟨s.ints, Action.after_of_error (unary_of_nil items)⟩
  | cons n rest => exact ⟨_, Action.after_of_ok (unary_of_cons items)⟩

/-- Nor does a word of two operands, whether it is defined on them or not. -/
theorem after_binary (f : Int64 → Int64 → Except Fault Int64) (s : State) :
    ∃ ints, Action.after (binary f) s = { s with ints } := by
  match items : s.ints.toList with
  | [] | [_] =>
    have short : s.ints.size < 2 := by simp [s.ints.size_eq, items]
    exact ⟨s.ints, Action.after_of_error (binary_of_short short)⟩
  | right :: left :: rest =>
    have computed := binary_of_two (f := f) items
    cases result : f left right with
    | ok n =>
      rw [result] at computed
      exact ⟨_, Action.after_of_ok computed⟩
    | error fault =>
      rw [result] at computed
      exact ⟨_, Action.after_of_error computed⟩

/-- The value that a word reports, if it reports one. -/
def report? (w : Native) (s : State) : Option Value :=
  match w with
  | dot => s.ints.peek?.map .integer
  | dotS => some (.text s.ints.summary)
  | bye | add | sub | mul | div | mod | negate | abs => none

/-- The part of the state that a word has for its own: besides the stack, a word changes the value
if it reports one, and the status if it is `bye`. -/
theorem after_apply (w : Native) (s : State) :
    ∃ ints, Action.after w.apply s =
      ⟨ints, s.floats, (w.report? s).or s.value, if w = bye then .shutdown else s.status⟩ := by
  cases w with
  | bye => exact ⟨s.ints, rfl⟩
  | dotS => exact ⟨s.ints, rfl⟩
  | dot =>
    have top : dot.report? s = s.ints.toList.head?.map .integer := rfl
    cases items : s.ints.toList with
    | nil =>
      rw [top, items]
      exact ⟨s.ints, Action.after_of_error (Action.bind_of_error (Action.pop_of_nil items))⟩
    | cons n rest =>
      rw [top, items]
      exact ⟨.ofList rest, Action.after_of_ok (Action.bind_of_ok (Action.pop_of_cons items))⟩
  | negate => exact after_unary _ s
  | abs => exact after_unary maskedAbs s
  | add => exact after_binary (fun left right => .ok (left + right)) s
  | sub => exact after_binary (fun left right => .ok (left - right)) s
  | mul => exact after_binary (fun left right => .ok (left * right)) s
  | div => exact after_binary (divide div (· / ·)) s
  | mod => exact after_binary (divide mod (· % ·)) s

/-- One word alone changes the status. -/
theorem status_after_apply {w : Native} (other : w ≠ bye) (s : State) :
    (Action.after w.apply s).status = s.status := by
  obtain ⟨ints, left⟩ := after_apply w s
  rw [left]
  exact if_neg other

theorem status_after_apply_of_shutdown (w : Native) (ended : s.status = .shutdown) :
    (Action.after w.apply s).status = .shutdown := by
  by_cases bye : w = bye
  · subst bye
    rfl
  · rw [status_after_apply bye, ended]

/-- A word of one operand can only miss it. -/
theorem fault_of_unary {f : Int64 → Int64} {fault : Fault} (h : unary f s = .error fault s') :
    fault = .emptyStack ∧ s.ints.toList = [] ∧ s' = s := by
  cases items : s.ints.toList with
  | nil =>
    rw [unary_of_nil items] at h
    injection h with h kept
    exact ⟨h.symm, rfl, kept.symm⟩
  | cons n rest =>
    rw [unary_of_cons items] at h
    injection h

/-- A word of two operands misses one of them, or is not defined on them. -/
theorem fault_of_binary {f : Int64 → Int64 → Except Fault Int64} {fault : Fault}
    (h : binary f s = .error fault s') :
    (fault = .tooFewItems 2 s.ints.size ∧ s.ints.size < 2 ∧ s' = s) ∨
      ∃ left right, f left right = .error fault := by
  by_cases short : s.ints.size < 2
  · rw [binary_of_short short] at h
    injection h with h kept
    exact .inl ⟨h.symm, short, kept.symm⟩
  · rw [s.ints.size_eq, Nat.not_lt] at short
    obtain ⟨right, left, rest, items⟩ := exists_two short
    rw [binary_of_two items] at h
    cases result : f left right with
    | ok n =>
      rw [result] at h
      injection h
    | error cause =>
      rw [result] at h
      injection h with h
      exact .inr ⟨left, right, h ▸ result⟩

theorem fault_of_divide {word : Native} {f : Int64 → Int64 → Int64} {fault : Fault}
    (h : divide word f left right = .error fault) : fault = .divisionByZero word.name := by
  unfold divide at h
  split at h
  · injection h with h
    exact h.symm
  · injection h

/-- What a native word can fail with. Where it misses an operand, it has done nothing. -/
theorem fault_of_apply {w : Native} {fault : Fault} (h : w.apply s = .error fault s') :
    (fault = .emptyStack ∧ s.ints.toList = [] ∧ s' = s) ∨
      (fault = .tooFewItems 2 s.ints.size ∧ s.ints.size < 2 ∧ s' = s) ∨
      ((w = div ∨ w = mod) ∧ fault = .divisionByZero w.name) := by
  cases w with
  | bye => injection h
  | dotS => injection h
  | dot =>
    cases items : s.ints.toList with
    | nil =>
      rw [apply, Action.bind_of_error (Action.pop_of_nil items)] at h
      injection h with h kept
      exact .inl ⟨h.symm, rfl, kept.symm⟩
    | cons n rest =>
      rw [apply, Action.bind_of_ok (Action.pop_of_cons items)] at h
      injection h
  | negate => exact .inl (fault_of_unary h)
  | abs => exact .inl (fault_of_unary h)
  | add | sub | mul =>
    rw [apply] at h
    rcases fault_of_binary h with few | ⟨left, right, failed⟩
    · exact .inr (.inl few)
    · injection failed
  | div | mod =>
    rw [apply] at h
    rcases fault_of_binary h with few | ⟨left, right, failed⟩
    · exact .inr (.inl few)
    · exact .inr (.inr ⟨by simp, fault_of_divide failed⟩)

end

end Native

end Forth

import Forth.Native
import Forth.Number.Binary64
import Forth.Stack

/-!
# The state that words act on

The words of a session share two stacks, the value that the current line reports, and the
status of the session. An `Action` changes the state and may end in a fault; what it did
before the fault stays done.
-/

namespace Forth

/-- What a line reports. -/
inductive Value where
  | integer (n : Int64)
  | text (s : String)
  deriving DecidableEq

def Value.toText : Value → String
  | .integer n => toString n
  | .text s => s

inductive Status where
  | running
  /-- The session is over. Nothing leads back. -/
  | shutdown
  deriving DecidableEq

structure State where
  ints : Stack Int64
  /-- Kept for floating-point words. No word uses it. -/
  floats : Stack Binary64
  /-- Set by the last word of the line that reported something. -/
  value : Option Value
  status : Status
  deriving DecidableEq

namespace State

def initial : State := ⟨.empty, .empty, none, .running⟩

instance : Inhabited State := ⟨initial⟩

def push (s : State) (n : Int64) : State := { s with ints := s.ints.push n }

def isShutdown (s : State) : Bool := s.status == .shutdown

theorem isShutdown_iff {s : State} : s.isShutdown = true ↔ s.status = .shutdown := by
  simp [isShutdown]

theorem isShutdown_eq_false_iff {s : State} : s.isShutdown = false ↔ s.status = .running := by
  cases h : s.status <;> simp [isShutdown, h]

@[simp] theorem ints_push (s : State) (n : Int64) : (s.push n).ints = s.ints.push n := rfl

@[simp] theorem status_push (s : State) (n : Int64) : (s.push n).status = s.status := rfl

@[simp] theorem value_push (s : State) (n : Int64) : (s.push n).value = s.value := rfl

@[simp] theorem floats_push (s : State) (n : Int64) : (s.push n).floats = s.floats := rfl

end State

abbrev Action := EStateM Fault State

namespace Action

/-- Takes the top integer. -/
def pop : Action Int64 := fun s =>
  match s.ints.pop? with
  | none => .error .emptyStack s
  | some (n, rest) => .ok n { s with ints := rest }

def push (n : Int64) : Action Unit := fun s => .ok () (s.push n)

def report (v : Value) : Action Unit := fun s => .ok () { s with value := some v }

def shutdown : Action Unit := fun s => .ok () { s with status := .shutdown }

/-- The state that an action leaves, fault or not. -/
def after {α : Type} (act : Action α) (s : State) : State :=
  match act s with
  | .ok _ s => s
  | .error _ s => s

section

variable {α β : Type} {act act' : Action α} {next : α → Action β} {s s' : State}

theorem bind_of_ok {a : α} (h : act s = .ok a s') : (act >>= next) s = next a s' := by
  simp only [bind, EStateM.bind, h]

theorem bind_of_error {fault : Fault} (h : act s = .error fault s') :
    (act >>= next) s = .error fault s' := by
  simp only [bind, EStateM.bind, h]

/-- What follows an action depends on nothing but what the action did. -/
theorem bind_congr (h : act s = act' s') (next : α → Action β) :
    (act >>= next) s = (act' >>= next) s' := by
  simp only [bind, EStateM.bind, h]

theorem after_of_ok {a : α} (h : act s = .ok a s') : after act s = s' := by
  rw [after, h]

theorem after_of_error {fault : Fault} (h : act s = .error fault s') : after act s = s' := by
  rw [after, h]

theorem get_run : (get : Action State) s = .ok s s := rfl

theorem pop_of_nil (h : s.ints.toList = []) : pop s = .error .emptyStack s := by
  rw [pop, (Stack.pop?_eq_none_iff s.ints).2 h]

theorem pop_of_cons {n : Int64} {rest : List Int64} (h : s.ints.toList = n :: rest) :
    pop s = .ok n { s with ints := .ofList rest } := by
  rw [pop, Stack.pop?_eq, h]

end

end Action

end Forth

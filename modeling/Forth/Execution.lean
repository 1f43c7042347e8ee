import Forth.Execution.Weight

/-!
# Executing a token

A token is dispatched without a frame, and then steps follow each other until execution ends
or a step fails. The state that a fault leaves is the one it arose in.
-/

namespace Forth.Execution

set_option linter.unusedVariables false in
/-- Takes steps up to the end, or up to the first fault. -/
def run (d : Dictionary) (limit : Nat) (frames : Stack Frame) (s : State) :
    EStateM.Result Fault State Unit :=
  match h : step d limit frames s with
  | none => .ok () s
  | some (.ok frames s) => run d limit frames s
  | some (.error fault s) => .error fault s
termination_by weight d.longest limit frames.toList
decreasing_by exact weight_lt_of_step h

/-- Executes one token. -/
def execute (d : Dictionary) (limit : Nat) (t : Token) : Action Unit := do
  let frames ← dispatch d limit t .empty
  run d limit frames

theorem run_of_step_eq_none {d : Dictionary} {limit : Nat} {frames : Stack Frame} {s : State}
    (h : step d limit frames s = none) : run d limit frames s = .ok () s := by
  rw [run, h]

theorem run_of_step_ok {d : Dictionary} {limit : Nat} {frames frames' : Stack Frame} {s s' : State}
    (h : step d limit frames s = some (.ok frames' s')) :
    run d limit frames s = run d limit frames' s' := by
  rw [run, h]

theorem run_of_step_error {d : Dictionary} {limit : Nat} {frames : Stack Frame} {s s' : State}
    {fault : Fault} (h : step d limit frames s = some (.error fault s')) :
    run d limit frames s = .error fault s' := by
  rw [run, h]

theorem execute_of_dispatch_ok {d : Dictionary} {limit : Nat} {t : Token} {s s' : State}
    {frames : Stack Frame} (h : dispatch d limit t .empty s = .ok frames s') :
    execute d limit t s = run d limit frames s' := by
  simp only [execute, bind, EStateM.bind, h]

theorem execute_of_dispatch_error {d : Dictionary} {limit : Nat} {t : Token} {s s' : State}
    {fault : Fault} (h : dispatch d limit t .empty s = .error fault s') :
    execute d limit t s = .error fault s' := by
  simp only [execute, bind, EStateM.bind, h]

end Forth.Execution

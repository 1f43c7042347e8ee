import Forth.Execution
import Forth.Report

/-!
# Evaluating lines

An interpreter is a dictionary, the two settings of execution, and the state that is carried
from line to line. A line is evaluated token by token up to the first fault or shutdown, of
which shutdown is looked at first. The value of a line never outlives it.
-/

namespace Forth

structure Interpreter where
  dictionary : Dictionary
  /-- How many composite words may be nested. -/
  maxDepth : Nat
  split : SplitMode
  state : State
  deriving DecidableEq

namespace Interpreter

def defaultMaxDepth : Nat := 128

/-- A fresh session. -/
def new (dictionary : Dictionary) (maxDepth : Nat) (split : SplitMode) : Interpreter :=
  ⟨dictionary, maxDepth, split, .initial⟩

def execute (i : Interpreter) (t : Token) : Except Fault Unit × Interpreter :=
  match Execution.execute i.dictionary i.maxDepth t i.state with
  | .ok _ s => (.ok (), { i with state := s })
  | .error fault s => (.error fault, { i with state := s })

/-- Executes the tokens of a line in order. -/
def evalTokens (i : Interpreter) : List Token → Outcome × Interpreter
  | [] => (.completed i.state.value, i)
  | t :: ts =>
    let (result, i) := i.execute t
    if i.state.isShutdown then (.shutdown, i)
    else match result with
      | .ok () => i.evalTokens ts
      | .error fault => (.failed fault, i)

/-- Forgets the value of the line. -/
def clearValue (i : Interpreter) : Interpreter :=
  { i with state := { i.state with value := none } }

def evalLine (i : Interpreter) (line : String) : Outcome × Interpreter :=
  let (outcome, i) :=
    if line.isEmpty then (.completed none, i) else i.evalTokens (i.split.split line)
  (outcome, i.clearValue)

end Interpreter

end Forth

import Forth.State

/-!
# The report of a line

Every line of input is answered by one report: the value of the line if it has one, the
fault that ended it, or the end of the session.
-/

namespace Forth

/-- How a line ended. -/
inductive Outcome where
  | completed (value : Option Value)
  | failed (fault : Fault)
  | shutdown
  deriving DecidableEq

namespace Outcome

def isShutdown : Outcome → Bool
  | shutdown => true
  | _ => false

/-- The report, ended by a newline. A fault with a context has a second line that quotes it. -/
def render : Outcome → String
  | completed none => "  OK!\n"
  | completed (some v) => s!"  {v.toText} OK!\n"
  | failed fault =>
    s!"  Error!: {fault.message}\n" ++
      match fault.context with
      | none => ""
      | some quoted => s!"    \"{quoted}\"\n"
  | shutdown => "  Exiting...\n"

end Outcome

end Forth

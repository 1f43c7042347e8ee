import Forth.Fault

/-!
# Native words

The words that are built in: their names, in the order in which they are listed, and their
stack effects. What they do is in `Forth.Native.Action`.
-/

namespace Forth

/-- How many items a word takes from the stack and how many it leaves in their place. -/
structure Effect where
  takes : Nat
  leaves : Nat
  deriving DecidableEq

/-- The customary picture of a stack effect: the items before and after a double dash. -/
def Effect.picture (e : Effect) : String :=
  " ".intercalate
    (["("] ++ List.replicate e.takes "n" ++ ["--"] ++ List.replicate e.leaves "n" ++ [")"])

inductive Native where
  /-- Ends the session. -/
  | bye
  /-- Takes the top item and reports it. -/
  | dot
  /-- Reports the whole stack. -/
  | dotS
  | add
  | sub
  | mul
  | div
  | mod
  | negate
  | abs
  deriving DecidableEq

namespace Native

def all : List Native :=
  [bye, dot, dotS, add, sub, mul, div, mod, negate, abs]

def name : Native → String
  | bye => "bye"
  | dot => "."
  | dotS => ".s"
  | add => "+"
  | sub => "-"
  | mul => "*"
  | div => "/"
  | mod => "mod"
  | negate => "negate"
  | abs => "abs"

def effect : Native → Effect
  | bye => ⟨0, 0⟩
  | dot => ⟨1, 0⟩
  | dotS => ⟨0, 0⟩
  | add | sub | mul | div | mod => ⟨2, 1⟩
  | negate | abs => ⟨1, 1⟩

def ofName? (name : String) : Option Native :=
  all.find? fun w => w.name == name

@[simp] theorem ofName?_name (w : Native) : ofName? w.name = some w := by
  cases w <;> decide

/-- A name belongs to at most one word. -/
theorem name_of_ofName? {name : String} {w : Native} (h : ofName? name = some w) :
    w.name = name := by
  simpa using List.find?_some h

end Native

end Forth

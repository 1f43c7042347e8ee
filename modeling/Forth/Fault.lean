import Forth.Number.Decimal
import Forth.Token

/-!
# Faults

What a token can fail with. A fault ends the line it arises on, never the session. Each
fault keeps what it is about; the wording is in `message`, `context` and `source`.
-/

namespace Forth

inductive Fault where
  /-- A word needs an item and the stack has none. -/
  | emptyStack
  /-- A word of several operands found fewer on the stack. -/
  | tooFewItems (needed found : Nat)
  /-- No word has this name. -/
  | unknownWord (word : String)
  /-- The token starts neither a number nor a word. -/
  | uncaughtToken (token : Token)
  /-- A number that cannot be read, and that names no word. -/
  | unreadable (token : Token) (cause : Decimal.Fault)
  /-- The named word was to divide by zero. -/
  | divisionByZero (word : String)
  /-- Expanding the word would nest expansions deeper than the limit. -/
  | tooDeep (word : String) (limit : Nat)
  /-- A number in floating-point form. -/
  | floatUnsupported (token : Token)
  deriving DecidableEq

namespace Fault

/-- What is said about the fault on the first line of a report. -/
def message : Fault → String
  | .emptyStack => "stack is empty"
  | .tooFewItems .. => "too few items on stack"
  | .unknownWord _ => "word does not exist in word dictionary"
  | .uncaughtToken _ => "token was not caught by switch"
  | .unreadable token cause => s!"could not parse \"{token}\" as an integer: {cause.message}"
  | .divisionByZero word => s!"{word}: division by zero"
  | .tooDeep word limit => s!"word \"{word}\" nested too deeply (limit {limit})"
  | .floatUnsupported _ => "floats not yet implemented"

/-- What the second line of a report quotes: the unknown word, or the first character of a
token that starts nothing. -/
def context : Fault → Option String
  | .unknownWord word => some word
  | .uncaughtToken token => some (String.ofList (token.toList.take 1))
  | _ => none

/-- The deeper cause of the fault, in words. -/
def source : Fault → Option String
  | .unreadable _ cause => some cause.message
  | _ => none

end Fault

end Forth

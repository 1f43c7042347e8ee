import Forth.CommandLine

/-!
# The program

What the program needs of the system that it runs on is a `Host`: files, the bytes of standard
input, and two places to write to. Lines of standard input are handed to the interpreter one by
one, and each report is written before the next line is asked for.

A host works in a monad of its own. That of the system itself is `IO`. A host that works in `StateM`
is a memory, and there it can be said what the program does.
-/

namespace Forth

variable {m : Type → Type} [Monad m]

namespace Session

/-- Where a session reads its lines and writes its reports. -/
structure Console (m : Type → Type) where
  /-- Asks for a line. There is none when the input has ended. -/
  read (prompt : String) : m (Except Failure (Option String))
  write (text : String) : m (Except Failure Unit)

/-- Reads a line and writes its report. This gives the interpreter for the next line, or how the
session has ended. -/
def exchange (console : Console m) (prompt : String) (i : Interpreter) :
    m (Interpreter ⊕ Except Failure Unit) := do
  match ← console.read prompt with
  | .error cause => return .inr (.error cause)
  | .ok none => return .inr (.error .endOfInput)
  | .ok (some line) =>
    let (outcome, i) := i.evalLine line
    match ← console.write outcome.render with
    | .error cause => return .inr (.error cause)
    | .ok () => return if outcome.isShutdown then .inr (.ok ()) else .inl i

/-- Runs a session at a console to its end. -/
def converse (console : Console m) (prompt : String) (i : Interpreter) :
    m (Except Failure Unit) :=
  repeatM (exchange console prompt) i

end Session

namespace CommandLine

/-- The file that the arguments name as the configuration. -/
def configPath? (args : List String) : Option String :=
  match Options.ofArgs args with
  | .ok o => o.config
  | .error _ => none

/-- The system that the program runs on. -/
structure Host (m : Type → Type) where
  /-- The content of a file, if it can be read. -/
  file (path : String) : m (Option ByteArray)
  /-- The next byte of standard input. There is none when the input has ended. -/
  nextByte : m (Except Session.Failure (Option UInt8))
  write (text : String) : m (Except Session.Failure Unit)
  /-- Says something on standard error. -/
  complain (text : String) : m Unit

namespace Host

/-- Reads a byte of a line. This gives the bytes of the line so far, the last one first, or all of
them if the line is at its end. -/
def extend (host : Host m) (read : List UInt8) :
    m (List UInt8 ⊕ Except Session.Failure (List UInt8)) := do
  match ← host.nextByte with
  | .error cause => return .inr (.error cause)
  | .ok none => return .inr (.ok read.reverse)
  | .ok (some b) =>
    return if b = Text.Lines.newline then .inr (.ok (b :: read).reverse) else .inl (b :: read)

/-- The bytes up to the next newline and with it, or up to the end of the input. -/
def readUntilNewline (host : Host m) : m (Except Session.Failure (List UInt8)) :=
  repeatM host.extend []

/-- Standard input line by line, and standard output. Nothing is shown to ask for a line. -/
def console (host : Host m) : Session.Console m where
  read _ := do
    match ← host.readUntilNewline with
    | .error cause => return .error cause
    | .ok bytes => return .ok (Text.Lines.textOf? bytes)
  write := host.write

/-- The content of the file that the arguments name, if they name one that can be read. -/
def config (host : Host m) (args : List String) : m (Option ByteArray) :=
  match configPath? args with
  | some path => host.file path
  | none => return none

/-- The exit code. A failure is reported first. -/
def conclude (host : Host m) : Except Session.Failure Unit → m Nat
  | .ok () => return 0
  | .error failure => do
    host.complain failure.message
    return 1

end Host

/-- Does what the arguments say, and answers the exit code. -/
def program (host : Host m) (args : List String) : m Nat := do
  let content ← host.config args
  match task args fun _ => content with
  | .print text => host.conclude (← host.write text)
  | .refuse exitCode complaint =>
    host.complain complaint
    return exitCode
  | .session opening prompt i =>
    match ← host.write opening with
    | .error failure => host.conclude (.error failure)
    | .ok () => host.conclude (← Session.converse host.console prompt i)

end CommandLine

end Forth

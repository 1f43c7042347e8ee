import Forth.Program

/-!
# Running the program

The system as the host of the program: its files and its standard streams.
-/

namespace Forth.CommandLine

/-- Does something that may go wrong in the system. -/
def attempt {α : Type} (act : IO α) : IO (Except Session.Failure α) := do
  try return .ok (← act) catch e => return .error (.io (toString e))

/-- The system itself. Each text is on its way before anything else is done. -/
def Host.system (input output errors : IO.FS.Stream) : Host IO where
  file path := do
    try return some (← IO.FS.readBinFile path) catch _ => return none
  nextByte := attempt do
    return (← input.read 1).data[0]?
  write text := attempt do
    output.putStr text
    output.flush
  complain text := errors.putStrLn text

end Forth.CommandLine

open Forth.CommandLine

def main (args : List String) : IO UInt32 := do
  let host := Host.system (← IO.getStdin) (← IO.getStdout) (← IO.getStderr)
  return (← program host args).toUInt32

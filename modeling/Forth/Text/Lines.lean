import Forth.Text.Utf8

/-!
# Lines of a byte stream

A line ends with a newline, or with the end of the input if anything stands before it. A
carriage return right before the newline belongs to the line's end. Lines are cut out of
the bytes first and decoded one by one.
-/

namespace Forth.Text.Lines

def newline : UInt8 := 0x0A

def carriageReturn : UInt8 := 0x0D

def dropReturn (line : List UInt8) : List UInt8 :=
  if line.getLast? = some carriageReturn then line.dropLast else line

/-- The text of a line that was ended by a newline. -/
def ended (line : List UInt8) : String :=
  Utf8.decode (dropReturn line)

/-- The text of what follows the last newline, if anything does. -/
def unended (line : List UInt8) : List String :=
  if line.isEmpty then [] else [Utf8.decode line]

/-- The text of a line from all of its bytes, those of its end among them. No bytes are no line. -/
def textOf? (line : List UInt8) : Option String :=
  if line.isEmpty then none
  else if line.getLast? = some newline then some (ended line.dropLast)
  else some (Utf8.decode line)

theorem textOf?_of_no_newline {line : List UInt8} (h : newline ∉ line) (nonempty : line ≠ []) :
    textOf? line = some (Utf8.decode line) := by
  have unended : line.getLast? ≠ some newline := fun last => h (List.mem_of_getLast? last)
  rw [textOf?, if_neg (by rwa [List.isEmpty_iff]), if_neg unended]

theorem textOf?_append_newline (line : List UInt8) :
    textOf? (line ++ [newline]) = some (ended line) := by
  rw [textOf?, if_neg (by simp), if_pos List.getLast?_concat, List.dropLast_concat]

def ofBytes (bytes : List UInt8) : List String :=
  let pieces := bytes.splitOn newline
  pieces.dropLast.map ended ++ unended (pieces.getLast?.getD [])

@[simp] theorem ofBytes_nil : ofBytes [] = [] := by
  simp [ofBytes, unended]

theorem ofBytes_of_no_newline {line : List UInt8} (h : newline ∉ line) :
    ofBytes line = unended line := by
  simp [ofBytes, List.splitOn_eq_singleton h]

/-- The first newline ends the first line. -/
theorem ofBytes_append_newline {line : List UInt8} (h : newline ∉ line) (rest : List UInt8) :
    ofBytes (line ++ newline :: rest) = ended line :: ofBytes rest := by
  have hne := List.splitOn_ne_nil newline rest
  simp [ofBytes, List.splitOn_append_cons_self_of_not_mem h, List.dropLast_cons_of_ne_nil hne,
    List.getLast?_cons_of_ne_nil hne]

end Forth.Text.Lines

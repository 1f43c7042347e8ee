import Mathlib
import Forth.Proofs.Decoding
import Forth.Proofs.Encoding
import Forth.Text.Lines

/-!
# Reading line by line

A reader takes the bytes up to a newline and with it, takes the line's end off them, and decodes
what is left. Asked until the bytes are spent, it gives the lines that a session is run over
(`Lines.readAll_eq_ofBytes`).

Every newline breaks off whatever is pending before it, so that the bytes might as well have been
decoded first and cut afterwards (`Lines.ofText_decode`). A byte sequence either has no newline or
is a line, a newline and a shorter byte sequence; every induction here is on that
(`Lines.lines_induction`).
-/

namespace Forth.Text.Lines

/-! ## The reader -/

/-- The bytes up to the first newline and with it, and those after it; all of them, where there is
none. -/
def readUntilNewline : List UInt8 → List UInt8 × List UInt8
  | [] => ([], [])
  | b :: bs =>
    if b = newline then ([b], bs)
    else (b :: (readUntilNewline bs).1, (readUntilNewline bs).2)

/-- Reads a line: its text, and the bytes that are left. There is none when the bytes are spent. -/
def readLine (bytes : List UInt8) : Option (String × List UInt8) :=
  let (buffer, rest) := readUntilNewline bytes
  if buffer.isEmpty then none
  else if buffer.getLast? = some newline then
    some (Utf8.decode (dropReturn buffer.dropLast), rest)
  else some (Utf8.decode buffer, rest)

section

variable {line bytes rest : List UInt8} {text : String}

theorem readUntilNewline_of_no_newline (h : newline ∉ line) :
    readUntilNewline line = (line, []) := by
  induction line with
  | nil => rfl
  | cons b bs ih =>
    rw [List.mem_cons, not_or] at h
    rw [readUntilNewline, if_neg (Ne.symm h.1), ih h.2]

theorem readUntilNewline_append_newline (h : newline ∉ line) (rest : List UInt8) :
    readUntilNewline (line ++ newline :: rest) = (line ++ [newline], rest) := by
  induction line with
  | nil => rfl
  | cons b bs ih =>
    rw [List.mem_cons, not_or] at h
    rw [List.cons_append, readUntilNewline, if_neg (Ne.symm h.1), ih h.2, List.cons_append]

theorem readLine_nil : readLine [] = none := rfl

theorem readLine_of_no_newline (h : newline ∉ line) (nonempty : line ≠ []) :
    readLine line = some (Utf8.decode line, []) := by
  have unended : line.getLast? ≠ some newline := fun last => h (List.mem_of_getLast? last)
  simp only [readLine, readUntilNewline_of_no_newline h, List.isEmpty_iff, if_neg nonempty,
    if_neg unended]

theorem readLine_append_newline (h : newline ∉ line) (rest : List UInt8) :
    readLine (line ++ newline :: rest) = some (ended line, rest) := by
  have nonempty : line ++ [newline] ≠ [] := List.append_ne_nil_of_right_ne_nil _ (by simp)
  simp only [readLine, readUntilNewline_append_newline h, List.isEmpty_iff, if_neg nonempty,
    List.getLast?_concat, if_true, List.dropLast_concat, ended]

/-- A byte sequence has no newline, or it is a line, a newline and another byte sequence. -/
theorem lines_induction {P : List UInt8 → Prop} (last : ∀ line, newline ∉ line → P line)
    (more : ∀ line rest, newline ∉ line → P rest → P (line ++ newline :: rest))
    (bytes : List UInt8) : P bytes := by
  induction h : bytes.length using Nat.strongRecOn generalizing bytes with
  | ind n ih =>
    by_cases member : newline ∈ bytes
    · obtain ⟨line, rest, rfl, whole⟩ := List.eq_append_cons_of_mem member
      have shorter : rest.length < n := by
        rw [← h, List.length_append, List.length_cons]
        omega
      exact more line rest whole (ih rest.length shorter rest rfl)
    · exact last bytes member

theorem length_readLine (h : readLine bytes = some (text, rest)) : rest.length < bytes.length := by
  induction bytes using lines_induction with
  | last line whole =>
    by_cases empty : line = []
    · rw [empty, readLine_nil] at h
      cases h
    · rw [readLine_of_no_newline whole empty] at h
      cases h
      exact List.length_pos_iff.2 empty
  | more line rest' whole =>
    rw [readLine_append_newline whole] at h
    cases h
    rw [List.length_append, List.length_cons]
    omega

end

/-- The lines that are read until the bytes are spent. -/
def readAll (bytes : List UInt8) : List String :=
  match _h : readLine bytes with
  | none => []
  | some (text, rest) => text :: readAll rest
termination_by bytes.length
decreasing_by exact length_readLine _h

section

variable {line bytes rest : List UInt8}

theorem readAll_of_no_newline (h : newline ∉ line) : readAll line = unended line := by
  by_cases empty : line = []
  · rw [empty, readAll, readLine_nil]
    rfl
  · rw [readAll, readLine_of_no_newline h empty]
    dsimp only
    rw [readAll, readLine_nil, unended, if_neg (by rwa [List.isEmpty_iff])]

theorem readAll_append_newline (h : newline ∉ line) (rest : List UInt8) :
    readAll (line ++ newline :: rest) = ended line :: readAll rest := by
  rw [readAll, readLine_append_newline h]

theorem readAll_eq_ofBytes (bytes : List UInt8) : readAll bytes = ofBytes bytes := by
  induction bytes using lines_induction with
  | last line whole => rw [readAll_of_no_newline whole, ofBytes_of_no_newline whole]
  | more line rest whole ih =>
    rw [readAll_append_newline whole, ofBytes_append_newline whole, ih]

/-- There is a line for every newline, and one for what stands after the last of them. -/
theorem length_ofBytes (bytes : List UInt8) :
    (ofBytes bytes).length =
      bytes.count newline + if bytes = [] ∨ bytes.getLast? = some newline then 0 else 1 := by
  induction bytes using lines_induction with
  | last line whole =>
    rw [ofBytes_of_no_newline whole, List.count_eq_zero_of_not_mem whole, Nat.zero_add, unended]
    have unterminated : line.getLast? ≠ some newline := fun last =>
      whole (List.mem_of_getLast? last)
    by_cases empty : line = []
    · simp only [empty, List.isEmpty_nil, if_true, List.length_nil, true_or]
    · simp only [List.isEmpty_iff, empty, unterminated, or_self, if_false, List.length_singleton]
  | more line rest whole ih =>
    have same : (line ++ newline :: rest = [] ∨
        (line ++ newline :: rest).getLast? = some newline) ↔
        (rest = [] ∨ rest.getLast? = some newline) := by
      rw [List.getLast?_append_of_ne_nil _ (List.cons_ne_nil newline rest)]
      by_cases empty : rest = []
      · simp [empty]
      · simp [empty, List.getLast?_cons_of_ne_nil empty]
    rw [ofBytes_append_newline whole, List.length_cons, ih, List.count_append,
      List.count_eq_zero_of_not_mem whole, List.count_cons_self]
    simp only [same]
    omega

end

/-! ## Decoding before cutting -/

/-- The text of a line without the carriage return at its end, if one is there. -/
def withoutReturn (line : List Char) : List Char :=
  if line.getLast? = some '\r' then line.dropLast else line

/-- The lines of a text: its pieces between newlines, without the carriage return at the end of
those that a newline ends, and without an empty one at the end. -/
def ofText (text : String) : List String :=
  let pieces := text.toList.splitOn '\n'
  let last := pieces.getLast?.getD []
  pieces.dropLast.map (fun piece => String.ofList (withoutReturn piece)) ++
    if last.isEmpty then [] else [String.ofList last]

section

variable {text : String} {piece rest : List Char} {line : List UInt8}

theorem ofText_of_no_newline (h : '\n' ∉ text.toList) :
    ofText text = if text.toList.isEmpty then [] else [text] := by
  simp [ofText, List.splitOn_eq_singleton h]

theorem ofText_append_newline (h : '\n' ∉ piece) (split : text.toList = piece ++ '\n' :: rest) :
    ofText text = String.ofList (withoutReturn piece) :: ofText (String.ofList rest) := by
  have hne := List.splitOn_ne_nil '\n' rest
  simp [ofText, split, List.splitOn_append_cons_self_of_not_mem h, List.dropLast_cons_of_ne_nil hne,
    List.getLast?_cons_of_ne_nil hne]

theorem toList_decode_append_newline (line rest : List UInt8) :
    (Utf8.decode (line ++ newline :: rest)).toList =
      (Utf8.decode line).toList ++ '\n' :: (Utf8.decode rest).toList :=
  Utf8.toList_decode_append_ascii (by decide) line rest

theorem getLast?_decode_eq_return_iff :
    (Utf8.decode line).toList.getLast? = some '\r' ↔ line.getLast? = some carriageReturn :=
  Utf8.getLast?_decode_iff (b := carriageReturn) (by decide)

/-- A carriage return is taken off the text of a line where it is taken off its bytes. -/
theorem withoutReturn_decode (line : List UInt8) :
    withoutReturn (Utf8.decode line).toList = (ended line).toList := by
  rw [withoutReturn, ended, dropReturn]
  simp only [getLast?_decode_eq_return_iff]
  split
  next last =>
    obtain ⟨kept, rfl⟩ := List.getLast?_eq_some_iff.1 last
    rw [Utf8.toList_decode_append_ascii (by decide), Utf8.toList_decode_eq_nil_iff.2 rfl,
      List.dropLast_concat, List.dropLast_concat]
  next other => rfl

/-- Cutting the decoded text gives the lines that are cut out of the bytes. -/
theorem ofText_decode (bytes : List UInt8) : ofText (Utf8.decode bytes) = ofBytes bytes := by
  induction bytes using lines_induction with
  | last line whole =>
    rw [ofText_of_no_newline (Utf8.newline_not_mem_decode whole), ofBytes_of_no_newline whole,
      unended]
    simp only [List.isEmpty_iff, Utf8.toList_decode_eq_nil_iff]
  | more line rest whole ih =>
    rw [ofText_append_newline (Utf8.newline_not_mem_decode whole)
        (toList_decode_append_newline line rest), withoutReturn_decode, String.ofList_toList,
      String.ofList_toList, ih, ofBytes_append_newline whole]

end

/-! ## Reading what was written -/

/-- How a line that is written ends. -/
inductive Ending where
  | lf
  | crlf
  deriving DecidableEq

def Ending.bytes : Ending → List UInt8
  | lf => [newline]
  | crlf => [carriageReturn, newline]

/-- The bytes of lines that are written one after the other. -/
def write (lines : List (String × Ending)) : List UInt8 :=
  lines.flatMap fun (text, ending) => Text.bytes text ++ ending.bytes

/-- A line that comes back as it was written, whichever way it ends. -/
def Plain (text : String) : Prop :=
  '\n' ∉ text.toList ∧ text.toList.getLast? ≠ some '\r'

section

variable {text : String}

theorem newline_not_mem_bytes (h : '\n' ∉ text.toList) : newline ∉ Text.bytes text := by
  intro member
  obtain ⟨before, after, split⟩ := List.append_of_mem member
  have decoded := toList_decode_append_newline before after
  rw [← split, Utf8.decode_bytes] at decoded
  apply h
  rw [decoded]
  exact List.mem_append_right _ List.mem_cons_self

theorem dropReturn_bytes (h : text.toList.getLast? ≠ some '\r') :
    dropReturn (Text.bytes text) = Text.bytes text := by
  apply if_neg
  intro last
  apply h
  rw [← getLast?_decode_eq_return_iff, Utf8.decode_bytes] at last
  exact last

theorem dropReturn_concat (line : List UInt8) : dropReturn (line ++ [carriageReturn]) = line := by
  rw [dropReturn, List.getLast?_concat, if_pos rfl, List.dropLast_concat]

theorem ofBytes_append_ending (plain : Plain text) (ending : Ending) (rest : List UInt8) :
    ofBytes (Text.bytes text ++ ending.bytes ++ rest) = text :: ofBytes rest := by
  have whole := newline_not_mem_bytes plain.1
  cases ending with
  | lf =>
    rw [Ending.bytes, List.append_assoc, List.singleton_append, ofBytes_append_newline whole, ended,
      dropReturn_bytes plain.2, Utf8.decode_bytes]
  | crlf =>
    have whole' : newline ∉ Text.bytes text ++ [carriageReturn] := by
      rw [List.mem_append, not_or]
      exact ⟨whole, by decide⟩
    have split : Text.bytes text ++ Ending.crlf.bytes ++ rest =
        (Text.bytes text ++ [carriageReturn]) ++ newline :: rest := by
      simp [Ending.bytes]
    rw [split, ofBytes_append_newline whole', ended, dropReturn_concat, Utf8.decode_bytes]

theorem ofBytes_write {lines : List (String × Ending)} (plain : ∀ l ∈ lines, Plain l.1) :
    ofBytes (write lines) = lines.map Prod.fst := by
  induction lines with
  | nil => exact ofBytes_nil
  | cons l ls ih =>
    rw [List.forall_mem_cons] at plain
    rw [write, List.flatMap_cons, ofBytes_append_ending plain.1, List.map_cons]
    exact congrArg (l.1 :: ·) (ih plain.2)

end

/-- The lines that the reader gives until the bytes are spent are those that a session is run over.
There is one for every newline, and one for what stands after the last of them; they are the lines
of the decoded text. Lines that were written, whichever way each of them ends, are read back. -/
theorem readAll_reads_all :
    (∀ bytes : List UInt8,
      readAll bytes = ofBytes bytes ∧
      (readAll bytes).length =
        bytes.count newline + (if bytes = [] ∨ bytes.getLast? = some newline then 0 else 1) ∧
      readAll bytes = ofText (Utf8.decode bytes)) ∧
    ∀ lines : List (String × Ending), (∀ l ∈ lines, Plain l.1) →
      readAll (write lines) = lines.map Prod.fst := by
  constructor
  · intro bytes
    rw [readAll_eq_ofBytes]
    exact ⟨rfl, length_ofBytes bytes, (ofText_decode bytes).symm⟩
  · intro lines plain
    rw [readAll_eq_ofBytes, ofBytes_write plain]

theorem readAll_mixed_endings :
    (∀ l ∈ [("1 2 +", Ending.crlf), ("", .lf), ("bye", .crlf)], Plain l.1) ∧
      readAll (write [("1 2 +", .crlf), ("", .lf), ("bye", .crlf)]) = ["1 2 +", "", "bye"] := by
  have plain : ∀ l ∈ [("1 2 +", Ending.crlf), ("", .lf), ("bye", .crlf)], Plain l.1 := by
    simp [Plain]
  exact ⟨plain, readAll_reads_all.2 _ plain⟩

/-- A character that a line's end breaks off, a carriage return that is not part of a line's end,
and a last line without one. -/
example : ofBytes [0xE2, 0x82, 0x0D, 0x0A, 0x0D, 0x0D, 0x0A, 0x61, 0x0D] =
    ["\uFFFD", "\r", "a\r"] := by cbv

end Forth.Text.Lines

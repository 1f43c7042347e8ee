import Forth.Toml.Draft
import Forth.Toml.Scalar

/-!
# TOML documents

A document is a sequence of lines: headers, keys with their values, and lines with nothing
on them. Every line is read by itself, and the lines together describe a table.
-/

namespace Forth.Toml

/-! ## Values -/

/-- Reads a key and its value. -/
def binding (value : Reader Value) : Reader (Key × Value) :=
  key.andThen fun k =>
    (value.after ((Skip.exactly ['=']).followedBy spaces)).map (k, ·)

/-- Reads an array. -/
def array (value : Reader Value) : Reader Value :=
  ((Reader.enclosed ',' lines value ']').map fun (items, _) => .array items).after (.exactly ['['])

/-- The table that keys and values in braces describe. -/
def inlineTable? (bindings : List (Key × Value)) : Option Value :=
  (bindings.foldlM (fun d (k, v) => Draft.assign d k v) []).map fun d => .table (Draft.finish d)

/-- Reads a table in braces, which stands on one line and has no comma after its last value. -/
def inlineTable (value : Reader Value) : Reader Value :=
  ((Reader.enclosed ',' spaces (binding value) '\x7D').filterMap fun (bindings, trailing) =>
    if trailing then none else inlineTable? bindings).after (.exactly ['\x7B'])

/-- Reads a value that is nested no deeper than so many levels. -/
def value : Nat → Reader Value
  | 0 => (string.map .string).orElse scalar
  | depth + 1 =>
    (string.map .string).orElse
      ((array (value depth)).orElse ((inlineTable (value depth)).orElse scalar))

/-! ## Lines -/

inductive Statement where
  /-- What follows belongs to this table. -/
  | header (key : Key)
  /-- What follows belongs to a new table of this array. -/
  | arrayHeader (key : Key)
  | assign (key : Key) (v : Value)

/-- Reads one line that says something. -/
def statement : Reader Statement :=
  let header := (key.map .header).after (.exactly ['[']) |>.before (.exactly [']'])
  let arrayHeader :=
    (key.map .arrayHeader).after (.exactly ['[', '[']) |>.before (.exactly [']', ']'])
  let assign := (binding (value maxNesting)).map fun (k, v) => .assign k v
  (arrayHeader.orElse (header.orElse assign)).before lineEnd

set_option linter.unusedVariables false in
/-- The statements of a document, or nothing if it has a line that is none. -/
def statements (acc : List Statement) (s : List Char) : Option (List Statement) :=
  if hs : s.isEmpty then some acc.reverse
  else
    match h : (statement.after spaces).read s with
    | some (a, rest) => statements (a :: acc) rest
    | none =>
      match h' : lineEnd.skip s with
      | some rest => statements acc rest
      | none => none
termination_by s.length
decreasing_by
  · exact (statement.after spaces).shorter h
  · exact length_lineEnd_lt (by simpa using hs) h'

/-! ## Documents -/

/-- Which table the lines belong to. -/
inductive Target where
  | root
  | table (key : Key)
  | element (key : Key)

/-- A document read so far: what the headers up to now have led to, and the table that is
being described. -/
structure Progress where
  root : Draft
  target : Target
  current : Draft

namespace Progress

/-- Puts the table that is being described where it belongs. -/
def close (p : Progress) : Option Draft :=
  match p.target with
  | .root => some p.current
  | .table key => p.root.putTable key p.current
  | .element key => p.root.addTable key p.current

def step (p : Progress) : Statement → Option Progress
  | .assign key v => (p.current.assign key v).map fun d => { p with current := d }
  | .header key => do
    let (current, root) ← (← p.close).takeTable key
    return ⟨root, .table key, current⟩
  | .arrayHeader key => do
    return ⟨← (← p.close).openTables key, .element key, []⟩

end Progress

/-- The table that the statements describe, if they agree with each other. -/
def ofStatements? (ss : List Statement) : Option Table := do
  let p ← ss.foldlM Progress.step ⟨[], .root, []⟩
  return (← p.close).finish

/-- Reads a document. A byte order mark in front of it does not count. -/
def parse? (text : String) : Option Table :=
  let cs := match text.toList with
    | '\uFEFF' :: cs => cs
    | cs => cs
  (statements [] cs).bind ofStatements?

end Forth.Toml

import Forth.Config
import Forth.Number.Shortest
import Forth.Text.Quoted
import Forth.Toml.Reserved

/-!
# Configurations from documents

A document has a table `interpreter` for the settings and a table `words` for the composite
words. A key that is missing leaves its default; a key that is not known, and a value that
is not of the wanted type, are faults, and the first one in the document is reported.

Where a table of settings is wanted, an array may give the settings in order. A date or time
counts as a table of one entry, which holds its text under `Toml.datetimeKey`. The split
mode, a choice between names, may also be a table whose only key is the name.
-/

namespace Forth.Config

namespace Schema

/-- Why a document does not describe a configuration. -/
inductive Fault where
  | unknownField (name : String) (known : List String)
  | unknownMode (name : String)
  | invalidType (found wanted : String)
  | negativeDepth (n : Int64)
  /-- The split mode is given neither by name nor by a table. -/
  | noChoice
  /-- The table that gives the split mode is empty. -/
  | emptyChoice
  | manyChoices
  /-- Something stands under the name of the split mode. -/
  | payload (wanted : String)
  deriving DecidableEq

/-- The names, as alternatives. -/
def alternatives (names : List String) : String :=
  match names.map fun name => s!"`{name}`" with
  | [a] => a
  | [a, b] => s!"{a} or {b}"
  | names => "one of " ++ ", ".intercalate names

def Fault.message : Fault → String
  | unknownField name known => s!"unknown field `{name}`, expected {alternatives known}"
  | unknownMode name =>
    s!"unknown variant `{name}`, expected " ++
      alternatives [SplitMode.space.name, SplitMode.whitespace.name]
  | invalidType found wanted => s!"invalid type: {found}, expected {wanted}"
  | negativeDepth n => s!"invalid value: integer `{n}`, expected usize"
  | noChoice => "wanted string or table"
  | emptyChoice => "wanted exactly 1 element, found 0 elements"
  | manyChoices => "wanted exactly 1 element, more than 1 element"
  | payload wanted => wanted

/-- What a value is called where another type is wanted. -/
def describe : Toml.Value → String
  | .string s => "string " ++ Text.quoted s
  | .integer n => s!"integer `{n}`"
  | .float x => s!"floating point `{x.text}`"
  | .boolean b => s!"boolean `{b}`"
  | .datetime _ => "map"
  | .array _ => "sequence"
  | .table _ => "map"
  | .tables _ => "sequence"

/-- What kind of value it is, where it stands under the name of a split mode. -/
def kindName : Toml.Value → String
  | .string _ => "string"
  | .integer _ => "integer"
  | .float _ => "float"
  | .boolean _ => "boolean"
  | .datetime _ => "datetime"
  | .array _ => "array"
  | .table _ => "table"
  | .tables _ => "array of tables"

def invalidType (v : Toml.Value) (wanted : String) : Except Fault α :=
  .error (.invalidType (describe v) wanted)

def text (v : Toml.Value) : Except Fault String :=
  match v with
  | .string s => .ok s
  | v => invalidType v "a string"

def depth (v : Toml.Value) : Except Fault Nat :=
  match v with
  | .integer n => if n < 0 then .error (.negativeDepth n) else .ok n.toInt.toNat
  | v => invalidType v "usize"

def modeOfName (name : String) : Except Fault SplitMode :=
  match SplitMode.ofName? name with
  | some mode => .ok mode
  | none => .error (.unknownMode name)

/-- Nothing may stand under the name of a split mode. -/
def noPayload : Toml.Value → Except Fault Unit
  | .array [] => .ok ()
  | .table [] => .ok ()
  | .tables [] => .ok ()
  | .array _ => .error (.payload "expected empty table")
  | .table _ => .error (.payload "expected empty table")
  | .tables _ => .error (.payload "expected empty array")
  | v => .error (.payload s!"expected table, found {kindName v}")

def mode : Toml.Value → Except Fault SplitMode
  | .string s => modeOfName s
  | .table [] => .error .emptyChoice
  | .table [(name, v)] => do
    let mode ← modeOfName name
    noPayload v
    return mode
  | .table _ => .error .manyChoices
  | _ => .error .noChoice

/-! ## Settings -/

def setField (s : Settings) (name : String) (v : Toml.Value) : Except Fault Settings :=
  match name with
  | "max_depth" => do return { s with maxDepth := ← depth v }
  | "split" => do return { s with split := ← mode v }
  | "prompt" => do return { s with prompt := ← text v }
  | _ => .error (.unknownField name ["max_depth", "split", "prompt"])

/-- The settings given in order; what is not given stays, and what is left over is ignored. -/
def settingsInOrder (s : Settings) (items : List Toml.Value) : Except Fault Settings :=
  (["max_depth", "split", "prompt"].zip items).foldlM (fun s (name, v) => setField s name v) s

def settings (v : Toml.Value) : Except Fault Settings :=
  match v with
  | .table entries => entries.foldlM (fun s (name, v) => setField s name v) .default
  | .array items => settingsInOrder .default items
  | .tables items => settingsInOrder .default (items.map .table)
  | .datetime d => setField .default Toml.datetimeKey (.string d.text)
  | v => invalidType v "struct InterpreterConfig"

/-! ## Words -/

def words (v : Toml.Value) : Except Fault (Std.ExtTreeMap String String) :=
  match v with
  | .table entries =>
    entries.foldlM (fun ws (name, v) => do return ws.insert name (← text v)) {}
  | .datetime d => .ok (({} : Std.ExtTreeMap String String).insert Toml.datetimeKey d.text)
  | v => invalidType v "a map"

end Schema

def setSection (c : Config) (name : String) (v : Toml.Value) : Except Schema.Fault Config :=
  match name with
  | "interpreter" => do return { c with settings := ← Schema.settings v }
  | "words" => do return { c with words := ← Schema.words v }
  | _ => .error (.unknownField name ["interpreter", "words"])

/-- The configuration that a document describes. -/
def ofTable (t : Toml.Table) : Except Schema.Fault Config :=
  t.foldlM (fun c (name, v) => c.setSection name v) default

end Forth.Config

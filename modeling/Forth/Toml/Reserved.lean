import Forth.Toml.Value

/-!
# Tables that stand for dates and times

A table whose first key is `datetimeKey` stands for a date or a time, the text of which is
the value of that key. Whatever else the table holds does not count then. A value is sound
if every such table in it does hold the text of a date or a time.
-/

namespace Forth.Toml

/-- The key that makes a table stand for a date or a time. -/
def datetimeKey : String := "$__toml_private_datetime"

/-- Is the value the text of a date or a time? -/
def Value.isDatetimeText : Value → Bool
  | .string s => (datetime? s.toList).isSome
  | _ => false

mutual

def Value.isSound : Value → Bool
  | .array items => soundItems items
  | .table entries => soundTable entries
  | .tables items => soundTables items
  | _ => true

def soundItems : List Value → Bool
  | [] => true
  | v :: vs => v.isSound && soundItems vs

/-- Only the first key makes a table stand for a date or a time. -/
def soundTable : List (String × Value) → Bool
  | [] => true
  | (key, v) :: rest =>
    if key = datetimeKey then v.isDatetimeText else v.isSound && soundEntries rest

def soundEntries : List (String × Value) → Bool
  | [] => true
  | (_, v) :: rest => v.isSound && soundEntries rest

def soundTables : List (List (String × Value)) → Bool
  | [] => true
  | t :: ts => soundTable t && soundTables ts

end

end Forth.Toml

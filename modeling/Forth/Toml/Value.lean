import Forth.Number.Binary64
import Forth.Toml.Datetime

/-!
# The values of a TOML document

A document is a table: keys with values, in the order in which they stand in it.
-/

namespace Forth.Toml

inductive Value where
  | string (s : String)
  | integer (n : Int64)
  | float (x : Binary64)
  | boolean (b : Bool)
  | datetime (d : Datetime)
  | array (items : List Value)
  | table (entries : List (String × Value))
  /-- An array of tables, which has a header for each of them. -/
  | tables (items : List (List (String × Value)))

abbrev Table := List (String × Value)

end Forth.Toml

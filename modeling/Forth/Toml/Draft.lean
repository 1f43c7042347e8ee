import Forth.Toml.Text
import Forth.Toml.Value

/-!
# Tables under construction

A table comes about in pieces: by its own header, on the way to the header of a table inside
it, or by a key with dots. Which pieces may meet is a matter of how the table came about, so
a draft remembers that. A key is given a value once, a table has one header, and a key with
dots adds to no table that has one.

The functions here fail where the document gives something twice or uses a value as a table.
-/

namespace Forth.Toml

/-- How a table came about. -/
inductive Origin where
  /-- By a header of its own. -/
  | header
  /-- On the way to the header of a table inside it. -/
  | outer
  /-- By a key with dots. -/
  | dotted
  deriving DecidableEq

/-- What a key of a draft stands for. -/
inductive Item where
  | value (v : Value)
  | table (origin : Origin) (entries : List (String × Item))
  /-- An array of tables, the latest first. -/
  | tables (latestFirst : List (List (String × Item)))

abbrev Draft := List (String × Item)

namespace Draft

mutual

/-- The finished value. -/
def finishItem : Item → Value
  | .value v => v
  | .table _ entries => .table (finish entries)
  | .tables latestFirst => .tables (finishAll latestFirst).reverse

/-- The finished table. -/
def finish : Draft → Table
  | [] => []
  | (key, item) :: rest => (key, finishItem item) :: finish rest

def finishAll : List Draft → List Table
  | [] => []
  | d :: ds => finish d :: finishAll ds

end

/-- Changes what stands under a key, or puts something there at the end. What the change
answers besides is passed on, and an item changed to nothing is taken out. -/
def alter (change : Option Item → Option (α × Option Item)) (key : String) :
    Draft → Option (α × Draft)
  | [] => (change none).map fun (a, item) => (a, (item.map (key, ·)).toList)
  | (k, item) :: rest =>
    if k = key then
      (change (some item)).map fun (a, item) => (a, (item.map (key, ·)).toList ++ rest)
    else (alter change key rest).map fun (a, rest) => (a, (k, item) :: rest)

/-- Changes the table at the end of a path. Tables that the path mentions first come about by
it, with the given origin, and a path through an array of tables leads into the latest of
them. A key with dots passes through no table that has a header. The change is told how the
table came about. -/
def descend (origin : Origin) (change : Origin → Draft → Option (α × Draft)) (here : Origin) :
    List String → Draft → Option (α × Draft)
  | [], d => change here d
  | key :: path, d =>
    let step : Option Item → Option (α × Option Item)
      | none =>
        (descend origin change origin path []).map fun (a, d) => (a, some (.table origin d))
      | some (.value _) => none
      | some (.tables []) => none
      | some (.tables (latest :: earlier)) =>
        (descend origin change .header path latest).map fun (a, d) =>
          (a, some (.tables (d :: earlier)))
      | some (.table made d) =>
        if origin = .dotted ∧ made = .header then none
        else (descend origin change made path d).map fun (a, d) => (a, some (.table made d))
    alter step key d

/-- Gives a key a value. A key without dots belongs to a table with a header, and the last
table of a key with dots must have come about by dots too. -/
def assign (d : Draft) (key : Key) (v : Value) : Option Draft :=
  let put (here : Origin) (d : Draft) : Option (Unit × Draft) :=
    if (here = .dotted) = (key.path = []) then none
    else alter (fun
      | none => some ((), some (.value v))
      | some _ => none) key.last d
  (descend .dotted put .header key.path d).map Prod.snd

/-- Takes out the table that a header is about to describe, as far as it exists already,
which it may do only on the way to the header of a table inside it. -/
def takeTable (d : Draft) (key : Key) : Option (Draft × Draft) :=
  let take (_ : Origin) : Draft → Option (Draft × Draft) :=
    alter (fun
      | none => some ([], none)
      | some (.table .outer entries) => some (entries, none)
      | some _ => none) key.last
  descend .outer take .header key.path d

/-- Puts in the table that a header has described. -/
def putTable (d : Draft) (key : Key) (entries : Draft) : Option Draft :=
  let put (_ : Origin) : Draft → Option (Unit × Draft) :=
    alter (fun
      | none => some ((), some (.table .header entries))
      | some _ => none) key.last
  (descend .outer put .header key.path d).map Prod.snd

/-- Makes sure that a key stands for an array of tables. -/
def openTables (d : Draft) (key : Key) : Option Draft :=
  let touch (_ : Origin) : Draft → Option (Unit × Draft) :=
    alter (fun
      | none => some ((), some (.tables []))
      | some (.tables latestFirst) => some ((), some (.tables latestFirst))
      | some _ => none) key.last
  (descend .outer touch .header key.path d).map Prod.snd

/-- Adds a table to an array of tables. -/
def addTable (d : Draft) (key : Key) (entries : Draft) : Option Draft :=
  let add (_ : Origin) : Draft → Option (Unit × Draft) :=
    alter (fun
      | some (.tables latestFirst) => some ((), some (.tables (entries :: latestFirst)))
      | _ => none) key.last
  (descend .outer add .header key.path d).map Prod.snd

end Draft

end Forth.Toml

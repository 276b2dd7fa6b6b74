/-!
# TOML documents

A document is a table: names with values, which can be tables again. How a
table came about decides what may still be added to it (`Form`).

A document is built from its statements in order. `Table.assign?` enters a
value, `Table.open?` begins a table and `Table.append?` an element of an array
of tables; each fails where TOML forbids to define a thing twice.
-/

namespace SessionEngine

namespace Toml

/-- How a table came about. -/
inductive Form where
  /-- Written as a value. Nothing can be added. -/
  | written
  /-- Mentioned on the way to a table that has a header. -/
  | implied
  /-- Mentioned on the way of a dotted key. -/
  | dotted
  /-- Begun by a header. -/
  | headed
deriving DecidableEq, Repr

/-- A value. Numbers with a fraction, and points in time, carry no more than
their kind: nobody asks for them. -/
inductive Value where
  | text (value : String)
  | integer (value : Int)
  | float
  | boolean (value : Bool)
  | moment
  | array (items : List Value)
  | table (form : Form) (entries : List (String × Value))
  /-- An array of tables that grows with each header. -/
  | tables (items : List (List (String × Value)))

abbrev Table := List (String × Value)

namespace Table

def get? (name : String) (t : Table) : Option Value := t.lookup name

def set (name : String) (value : Value) (t : Table) : Table :=
  t.map fun entry => if entry.1 = name then (name, value) else entry

/-- Changes the table that a path leads to, by way of the last element of an
array of tables. Tables that are missing on the way are made. A dotted key
does not lead through a table with a header. -/
def change? (isDotted : Bool) (f : Form → Table → Option Table) :
    List String → Form → Table → Option Table
  | [], form, t => f form t
  | name :: path, _, t =>
      match t.get? name with
      | none => do
          let form := if isDotted then Form.dotted else .implied
          return t ++ [(name, .table form (← change? isDotted f path form []))]
      | some (.table form inner) =>
          if form = .written ∨ (isDotted ∧ form = .headed) then none
          else do return t.set name (.table form (← change? isDotted f path form inner))
      | some (.tables items) => do
          let last ← change? isDotted f path .headed (← items.getLast?)
          return t.set name (.tables (items.dropLast ++ [last]))
      | some _ => none

/-- Splits a path into the way and the last name. -/
def splitPath (path : List String) : Option (List String × String) := do
  return (path.dropLast, ← path.getLast?)

/-- Enters a value under a key, seen from a table of some form. A dotted key
ends in a table that dotted keys have made, any other in one that they have
not. -/
def assignHere? (key : List String) (value : Value) (form : Form) (t : Table) :
    Option Table := do
  let (way, name) ← splitPath key
  change? true
    (fun form t =>
      if (form = .dotted) = (way = []) then none
      else if (t.get? name).isSome then none
      else some (t ++ [(name, value)]))
    way form t

/-- Enters a value under a key in the table at a path. -/
def assign? (path key : List String) (value : Value) (t : Table) : Option Table :=
  change? false (assignHere? key value) path .headed t

/-- Begins the table at a path. -/
def open? (path : List String) (t : Table) : Option Table := do
  let (way, name) ← splitPath path
  change? false
    (fun _ t =>
      match t.get? name with
      | none => some (t ++ [(name, .table .headed [])])
      | some (.table .implied inner) => some (t.set name (.table .headed inner))
      | some _ => none)
    way .headed t

/-- Begins the next element of the array of tables at a path. -/
def append? (path : List String) (t : Table) : Option Table := do
  let (way, name) ← splitPath path
  change? false
    (fun _ t =>
      match t.get? name with
      | none => some (t ++ [(name, .tables [[]])])
      | some (.tables items) => some (t.set name (.tables (items ++ [[]])))
      | some _ => none)
    way .headed t

end Table

inductive Statement where
  | assign (key : List String) (value : Value)
  /-- The header of a table. -/
  | table (path : List String)
  /-- The header of an element of an array of tables. -/
  | element (path : List String)

/-- Carries out statements. Values go into the table at `path`, which the last
header has begun. -/
def build? (path : List String) (t : Table) : List Statement → Option Table
  | [] => some t
  | .assign key value :: rest => do build? path (← t.assign? path key value) rest
  | .table path :: rest => do build? path (← t.open? path) rest
  | .element path :: rest => do build? path (← t.append? path) rest

/-- A table that is written as a value, from its entries. -/
def written? (entries : List (List String × Value)) : Option Value := do
  let t ← entries.foldlM (fun t (key, value) => Table.assignHere? key value .headed t) []
  return .table .written t

end Toml

end SessionEngine

/-!
# Paths

A path is kept as it was written, for messages, together with the names that
it leads through. Joining a name to a directory adds one name, so no path has
to be taken apart twice.

A slash at the end is kept apart from the names: whoever follows the path can
only reach a directory, while a directory can be made at it.
-/

namespace SessionEngine

structure Path where
  /-- The path as written. -/
  text : String
  names : List String
  /-- Whether a slash stands at the end. -/
  slash : Bool
deriving DecidableEq

namespace Path

/-- The pieces of a text between slashes. -/
def pieces : List Char → List (List Char)
  | [] => [[]]
  | c :: cs =>
      if c = '/' then [] :: pieces cs
      else
        match pieces cs with
        | [] => [[c]]
        | piece :: rest => (c :: piece) :: rest

def ofString (text : String) : Path :=
  let all := pieces text.toList
  let names := (all.filter (· ≠ [])).map String.ofList
  { text, names, slash := names ≠ [] ∧ all.getLast? = some [] }

/-- The names to follow. A slash at the end counts as the name of the
directory in itself, so that only directories can be reached this way. -/
def way (path : Path) : List String :=
  if path.slash then path.names ++ ["."] else path.names

/-- The names of the directories above, the nearest first. Points between the
names lead nowhere and are left out. -/
def above (path : Path) : List (List String) :=
  let plain := path.names.filter (· ≠ ".")
  (List.range plain.length).reverse.map plain.take

def join (dir : Path) (name : String) : Path :=
  { text :=
      if dir.text = "" then name
      else if dir.text.toList.getLast? = some '/' then dir.text ++ name
      else dir.text ++ "/" ++ name
    names := dir.names ++ [name]
    slash := false }

/-- The path of another name in the same directory. -/
def sibling (path : Path) (name : String) : Path :=
  { text := String.ofList (path.text.toList.reverse.dropWhile (· ≠ '/')).reverse ++ name
    names := path.names.dropLast ++ [name]
    slash := false }

/-- The last name, if it is the name of an entry. -/
def fileName? (path : Path) : Option String :=
  match (path.names.filter (· ≠ ".")).getLast? with
  | some name => if name = ".." then none else some name
  | none => none

@[simp] theorem names_sibling_join (dir : Path) (name other : String) :
    ((dir.join name).sibling other).names = dir.names ++ [other] := by
  simp [sibling, join]

end Path

end SessionEngine

import SessionEngine.Files.Disk

/-!
# Changes

What has to be done to the entries of one disk so that they become those of
another, which came about by operations on the first. Files are recognised by
their numbers: a file that is found at another place was moved, and only a
file that is new or was written to has to be stored.
-/

namespace SessionEngine

/-- Something to be done to a tree of files. -/
inductive Change where
  | makeDirectory (at_ : Location)
  | move (source target : Location)
  | store (at_ : Location) (bytes : Bytes)
deriving DecidableEq

namespace Disk

/-- Where a file is, by its number. -/
def placeOf? (d : Disk) (number : Nat) : Option Location :=
  (d.entries.find? fun entry => entry.2 = .file number).map Prod.fst

def newDirectories (old new : Disk) : List Change :=
  new.entries.filterMap fun (at_, node) =>
    if node = .directory ∧ old.lookup at_ ≠ some .directory then some (.makeDirectory at_)
    else none

/-- The files that are at another place. -/
def moves (old new : Disk) : List Change :=
  new.entries.filterMap fun (at_, node) =>
    match node with
    | .directory => none
    | .file number =>
        match old.placeOf? number with
        | some source => if source = at_ then none else some (.move source at_)
        | none => none

/-- The files that are new or were written to. -/
def stores (old new : Disk) : List Change :=
  new.entries.filterMap fun (at_, node) =>
    match node with
    | .directory => none
    | .file number =>
        if (old.placeOf? number).isSome ∧ old.content number = new.content number then none
        else some (.store at_ (new.content number).toBytes)

/-- What has to be done, in an order in which it can be done. -/
def changes (old new : Disk) : List Change :=
  newDirectories old new ++ moves old new ++ stores old new

end Disk

end SessionEngine

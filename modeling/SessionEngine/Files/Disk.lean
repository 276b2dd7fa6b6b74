import SessionEngine.Files.Content
import SessionEngine.Files.Path
import SessionEngine.Table
import SessionEngine.Text.Quoted

/-!
# Disks

A disk has a tree of directories and files without links. An entry of the
tree names a *file number*; the contents are kept by number. A file that is
open is known by its number alone, so it stays what it is while its entry is
renamed, replaced or removed.

Operations on the tree find their way name by name and fail with the first
obstacle (`locate`). Operations on an open file do not fail here; how the system
can fail to read or to write one is said in `SessionEngine.Files.Access`. What an
operation leaves alone is stated through `lookup` and `contentAt?`.
-/

namespace SessionEngine

/-! ## What can go wrong -/

/-- Why an operation on files fails. -/
inductive FileError where
  | nulInName
  | notFound
  /-- The medium fails. -/
  | device
  | denied
  | alreadyExists
  | notDirectory
  | isDirectory
  | invalidArgument
  | noSpace
  | nameTooLong
  | notEmpty
  /-- The length is beyond what a file can have. -/
  | lengthTooLarge
  /-- The file ended before all bytes asked for were read. -/
  | unexpectedEnd
  /-- The transfer does not hold its file open any more. -/
  | closed
  /-- The bytes are no text. -/
  | invalidText
deriving DecidableEq, Repr

namespace FileError

/-- The kind and the words of a failure, with the number that the system has
for it if it is the system that fails. -/
def parts : FileError → Option Nat × String × String
  | notFound => (some 2, "NotFound", "No such file or directory")
  | device => (some 5, "Uncategorized", "Input/output error")
  | denied => (some 13, "PermissionDenied", "Permission denied")
  | alreadyExists => (some 17, "AlreadyExists", "File exists")
  | notDirectory => (some 20, "NotADirectory", "Not a directory")
  | isDirectory => (some 21, "IsADirectory", "Is a directory")
  | invalidArgument => (some 22, "InvalidInput", "Invalid argument")
  | noSpace => (some 28, "StorageFull", "No space left on device")
  | nameTooLong => (some 36, "InvalidFilename", "File name too long")
  | notEmpty => (some 39, "DirectoryNotEmpty", "Directory not empty")
  | nulInName => (none, "InvalidInput", "file name contained an unexpected NUL byte")
  | lengthTooLarge => (none, "InvalidInput", "number too large to fit in target type")
  | unexpectedEnd => (none, "UnexpectedEof", "failed to fill whole buffer")
  | closed => (none, "Other", "transfer file is closed")
  | invalidText => (none, "InvalidData", "stream did not contain valid UTF-8")

def message (e : FileError) : String :=
  match e.parts with
  | (some code, _, words) => s!"{words} (os error {code})"
  | (none, _, words) => words

def details (e : FileError) : String :=
  match e.parts with
  | (some code, kind, words) =>
      s!"Os \x7b code: {code}, kind: {kind}, message: " ++ Quoted.encode words ++ " \x7d"
  | (none, kind, words) =>
      s!"Error \x7b kind: {kind}, message: " ++ Quoted.encode words ++ " \x7d"

end FileError

/-! ## The tree -/

/-- The names that lead from the root to an entry. -/
abbrev Location := List String

inductive Node where
  | file (number : Nat)
  | directory
deriving DecidableEq

/-- A tree of entries and the contents of all files. The root is a directory
and is no entry. -/
structure Disk where
  entries : Table Location Node
  /-- The contents, by file number. -/
  contents : List Content

namespace Disk

def empty : Disk := ⟨[], []⟩

/-- The longest name, in bytes. -/
def maxNameLength : Nat := 255

def maxFileLength : Nat := UInt64.size / 2 - 1

def lookup (d : Disk) (at_ : Location) : Option Node :=
  if at_ = [] then some .directory else d.entries.get? at_

/-- The contents of a file, by number. -/
def content (d : Disk) (number : Nat) : Content :=
  (d.contents[number]?).getD []

/-- Follows names from a directory. All but the last must be directories. -/
def walk (d : Disk) (here : Location) : List String → Except FileError Location
  | [] => .ok here
  | name :: rest =>
      if name = "." then walk d here rest
      else if name = ".." then walk d here.dropLast rest
      else if maxNameLength < name.utf8ByteSize then .error .nameTooLong
      else if rest = [] then .ok (here ++ [name])
      else
        match d.lookup (here ++ [name]) with
        | some .directory => walk d (here ++ [name]) rest
        | some (.file _) => .error .notDirectory
        | none => .error .notFound

/-- Whether a name has a character that no name can have. -/
def hasNul (name : String) : Bool := name.toList.contains '\x00'

/-- The length in bytes from which on a path is too long. -/
def maxPathLength : Nat := 4096

/-- Why a path cannot be followed, whatever the disk holds. -/
def obstacle? (path : Path) : Option FileError :=
  if path.names.any hasNul then some .nulInName
  else if maxPathLength ≤ path.text.utf8ByteSize then some .nameTooLong
  else none

/-- The location that a path leads to. Nothing need be there yet. -/
def locate (d : Disk) (path : Path) : Except FileError Location :=
  match obstacle? path with
  | some e => .error e
  | none => d.walk [] path.way

def stat (d : Disk) (path : Path) : Except FileError Node :=
  match d.locate path with
  | .error e => .error e
  | .ok at_ =>
      match d.lookup at_ with
      | some node => .ok node
      | none => .error .notFound

/-- Whether a path leads to anything. -/
def present (d : Disk) (path : Path) : Bool :=
  match d.stat path with
  | .ok _ => true
  | .error _ => false

/-! ## Changing the tree -/

def enter (d : Disk) (names : List String) : Except FileError Location :=
  d.walk [] (names ++ ["."])

def isDirectory (d : Disk) (names : List String) : Bool :=
  match d.enter names with
  | .ok _ => true
  | .error _ => false

/-- Makes one directory in a directory that is there. Names that end with a
point lead to what is there already. -/
def makeDirectory (d : Disk) (names : List String) : Except FileError Disk :=
  match names.getLast? with
  | none => .error .alreadyExists
  | some name =>
      match d.enter names.dropLast with
      | .error e => .error e
      | .ok here =>
          if name = "." ∨ name = ".." then .error .alreadyExists
          else if maxNameLength < name.utf8ByteSize then .error .nameTooLong
          else if (d.lookup (here ++ [name])).isSome then .error .alreadyExists
          else .ok { d with entries := d.entries.insert (here ++ [name]) .directory }

/-- The directory of these names is there, if what is there is a directory. -/
def keepDirectory (d : Disk) (names : List String) : Disk × Except FileError Unit :=
  (d, if d.isDirectory names then .ok () else .error .alreadyExists)

/-- Makes the first of some directories, each of which lies below the next.
Those next that are missing are made before. Those made before an obstacle
stay. -/
def makeFirst (d : Disk) : List (List String) → Disk × Except FileError Unit
  | [] => (d, .ok ())
  | names :: above =>
      match d.makeDirectory names with
      | .ok d => (d, .ok ())
      | .error .alreadyExists => d.keepDirectory names
      | .error .notFound =>
          match makeFirst d above with
          | (d, .error e) => (d, .error e)
          | (d, .ok ()) =>
              match d.makeDirectory names with
              | .ok d => (d, .ok ())
              | .error .alreadyExists => d.keepDirectory names
              | .error e => (d, .error e)
      | .error e => (d, .error e)

/-- Makes a directory and all directories above it that are missing. -/
def makeDirectories (d : Disk) (path : Path) : Disk × Except FileError Unit :=
  match obstacle? path with
  | some e => (d, .error e)
  | none => d.makeFirst (path.names :: path.above)

/-- Opens a file for writing, empty: the one that is there, or a new one. -/
def create (d : Disk) (path : Path) : Except FileError (Nat × Disk) :=
  match d.locate path with
  | .error e => .error e
  | .ok at_ =>
      match d.lookup at_ with
      | some .directory => .error .isDirectory
      | some (.file number) => .ok (number, { d with contents := d.contents.set number [] })
      | none =>
          .ok (d.contents.length,
            ⟨d.entries.insert at_ (.file d.contents.length), d.contents ++ [[]]⟩)

/-- The entries at and below a location, moved to another. -/
def moveBelow (source target : Location) (entries : Table Location Node) :
    Table Location Node :=
  entries.map fun (at_, node) =>
    if source.isPrefixOf at_ then (target ++ at_.drop source.length, node) else (at_, node)

def hasEntries (d : Disk) (at_ : Location) : Bool :=
  d.entries.any fun entry => at_.isPrefixOf entry.1 && entry.1 ≠ at_

/-- Moves whatever is at a location to another, over what is there. -/
def move (d : Disk) (source target : Location) : Disk :=
  { d with entries := moveBelow source target (d.entries.erase target) }

/-- Renames an entry. A file takes the place of a file and a directory that
of an empty directory; other targets stand in the way. -/
def renameAt (d : Disk) (source target : Location) : Except FileError Disk :=
  match d.lookup source, d.lookup target with
  | none, _ => .error .notFound
  | some _, none =>
      if source.isPrefixOf target then .error .invalidArgument
      else .ok (d.move source target)
  | some (.file _), some (.file _) =>
      .ok (if source = target then d else d.move source target)
  | some (.file _), some .directory => .error .isDirectory
  | some .directory, some (.file _) => .error .notDirectory
  | some .directory, some .directory =>
      if source = target then .ok d
      else if source.isPrefixOf target then .error .invalidArgument
      else if d.hasEntries target then .error .notEmpty
      else .ok (d.move source target)

def rename (d : Disk) (source target : Path) : Except FileError Disk :=
  match d.locate source, d.locate target with
  | .error e, _ => .error e
  | .ok _, .error e => .error e
  | .ok source, .ok target => d.renameAt source target

/-- Removes an entry and all entries below it. -/
def remove (d : Disk) (path : Path) : Disk :=
  match d.locate path with
  | .ok at_ => { d with entries := d.entries.filter fun entry => !at_.isPrefixOf entry.1 }
  | .error _ => d

def list? (d : Disk) (path : Path) : Option (List String) :=
  match d.locate path with
  | .error _ => none
  | .ok at_ =>
      if d.lookup at_ = some .directory then
        let children := d.entries.filter fun entry =>
          entry.1.length = at_.length + 1 && at_.isPrefixOf entry.1
        some ((children.filterMap fun entry => entry.1.getLast?).mergeSort (fun a b => a ≤ b))
      else none

/-! ## Open files -/

def resize (d : Disk) (number length : Nat) : Disk :=
  { d with contents := d.contents.modify number (Content.resize length) }

/-- Gives a file another length, if a file can be that long. -/
def setLength (d : Disk) (number length : Nat) : Except FileError Disk :=
  if length ≤ maxFileLength then .ok (d.resize number length) else .error .lengthTooLarge

def write (d : Disk) (number offset : Nat) (bytes : Bytes) : Disk :=
  { d with contents := d.contents.modify number (Content.write offset bytes) }

/-- Reads from a file, less than asked for if it ends before. -/
def read (d : Disk) (number offset length : Nat) : Bytes :=
  (d.content number).read offset length

def lengthOf (d : Disk) (number : Nat) : Nat := (d.content number).length

/-- Writes a file in one go, as its owner does outside of any transfer. -/
def store (d : Disk) (path : Path) (bytes : Bytes) : Disk :=
  match d.create path with
  | .ok (number, d) => d.write number 0 bytes
  | .error _ => d

/-- Gives the file at a path another length. -/
def cut (d : Disk) (path : Path) (length : Nat) : Disk :=
  match d.stat path with
  | .ok (.file number) => d.resize number length
  | _ => d

end Disk

end SessionEngine

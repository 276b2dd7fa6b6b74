import SessionEngine.Files.Disk

/-!
# Access to open files

A stretch of an open file is read into memory of the same length, all of it or
not at all. It cannot be read if its beginning cannot be reached, if the file
ends before the stretch does, or if the system gives up on the way. What had
been read by then stands in the memory all the same, over what was there
before.

Bytes are written to an open file in the same way. If the system gives up, the
first of them may have got into the file, and they stay there.

A `FileReader` and a `FileWriter` answer for the system what comes of each
attempt. A reader that gives up only where the file ends is had from a disk
(`Disk.reader`), and `FileWriter.unfailing` never gives up.
-/

namespace SessionEngine

/-! ## Reading -/

/-- What comes of reading a stretch of this length. -/
structure Reading (length : Nat) where
  /-- What got into the memory, at its beginning. -/
  bytes : Bytes
  /-- Why the stretch could not be read, if it could not. -/
  failure : Option FileError
  length_le : bytes.length ≤ length
  length_eq : failure = none → bytes.length = length

/-- How stretches of open files are read, by the number of the file. -/
abbrev FileReader := (number offset length : Nat) → Reading length

namespace Disk

theorem length_read_le (d : Disk) (number offset length : Nat) :
    (d.read number offset length).length ≤ length := by
  rw [read, Content.read_eq]
  exact List.length_take_le _ _

/-- Reads what a disk holds. -/
def reader (d : Disk) : FileReader := fun number offset length =>
  let bytes := d.read number offset length
  { bytes := bytes
    failure := if bytes.length < length then some .unexpectedEnd else none
    length_le := d.length_read_le number offset length
    length_eq := by
      intro hnone
      split at hnone
      · cases hnone
      next hnot =>
          exact Nat.le_antisymm (d.length_read_le number offset length) (Nat.not_lt.mp hnot) }

end Disk

/-! ## Writing -/

/-- What comes of writing these bytes. -/
structure Written (bytes : Bytes) where
  /-- How many of them got into the file, from the first on. -/
  count : Nat
  /-- Why not all of them did, or why it is not known that they did. -/
  failure : Option FileError
  count_le : count ≤ bytes.length
  count_eq : failure = none → count = bytes.length

/-- How bytes are written to open files, by the number of the file. -/
abbrev FileWriter := (number offset : Nat) → (bytes : Bytes) → Written bytes

def FileWriter.unfailing : FileWriter := fun _ _ bytes =>
  ⟨bytes.length, none, Nat.le_refl _, fun _ => rfl⟩

/-- Writes into a file what the system takes. -/
def Disk.writeBy (writer : FileWriter) (d : Disk) (number offset : Nat) (bytes : Bytes) :
    Disk × Option FileError :=
  let written := writer number offset bytes
  (d.write number offset (bytes.take written.count), written.failure)

end SessionEngine

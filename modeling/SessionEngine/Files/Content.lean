import SessionEngine.Bytes

/-!
# Contents of files

A file may be announced with any length before its first byte arrives, so its
contents are kept as a list of runs: stretches of written bytes, and holes,
which read as zero bytes and take no room.

`toBytes` is what a reader sees. Each operation is described through it:
`toBytes_take`, `toBytes_drop`, `toBytes_resize`, `toBytes_write`.
-/

namespace SessionEngine

/-- A stretch of a file. -/
inductive Run where
  /-- Bytes that were written. -/
  | data (bytes : Bytes)
  /-- Zero bytes that nobody wrote. -/
  | hole (length : Nat)
deriving DecidableEq

namespace Run

def toBytes : Run → Bytes
  | data bytes => bytes
  | hole length => List.replicate length 0

def length : Run → Nat
  | data bytes => bytes.length
  | hole length => length

def take (n : Nat) : Run → Run
  | data bytes => data (bytes.take n)
  | hole length => hole (min n length)

/-- A run without its first `n` bytes. -/
def drop (n : Nat) : Run → Run
  | data bytes => data (bytes.drop n)
  | hole length => hole (length - n)

theorem length_toBytes (r : Run) : r.toBytes.length = r.length := by
  cases r <;> simp [toBytes, length]

theorem toBytes_take (n : Nat) (r : Run) : (r.take n).toBytes = r.toBytes.take n := by
  cases r <;> simp [take, toBytes]

theorem toBytes_drop (n : Nat) (r : Run) : (r.drop n).toBytes = r.toBytes.drop n := by
  cases r <;> simp [drop, toBytes]

end Run

abbrev Content := List Run

namespace Content

/-- What a reader sees. -/
def toBytes (c : Content) : Bytes := c.flatMap Run.toBytes

def length : Content → Nat
  | [] => 0
  | r :: rs => r.length + length rs

def ofBytes (bytes : Bytes) : Content := [.data bytes]

def take : Nat → Content → Content
  | _, [] => []
  | n, r :: rs => if n ≤ r.length then [r.take n] else r :: take (n - r.length) rs

/-- Everything but the first `n` bytes. -/
def drop : Nat → Content → Content
  | _, [] => []
  | n, r :: rs => if n < r.length then r.drop n :: rs else drop (n - r.length) rs

/-- Cuts off, or appends a hole, so that the length becomes `n`. -/
def resize (n : Nat) (c : Content) : Content :=
  if n ≤ c.length then take n c else c ++ [.hole (n - c.length)]

/-- Writes bytes at an offset, after a hole if the offset is beyond the end. -/
def write (offset : Nat) (bytes : Bytes) (c : Content) : Content :=
  if bytes = [] then c
  else resize offset c ++ .data bytes :: drop (offset + bytes.length) c

/-- The bytes from an offset on, at most `n`. -/
def read (offset n : Nat) (c : Content) : Bytes := toBytes (take n (drop offset c))

theorem toBytes_cons (r : Run) (rs : Content) :
    toBytes (r :: rs) = r.toBytes ++ toBytes rs := rfl

theorem toBytes_append (c d : Content) : toBytes (c ++ d) = toBytes c ++ toBytes d := by
  simp [toBytes]

theorem length_toBytes (c : Content) : (toBytes c).length = c.length := by
  induction c with
  | nil => rfl
  | cons r rs ih => simp [toBytes_cons, length, ih, Run.length_toBytes]

theorem toBytes_take (n : Nat) (c : Content) : toBytes (take n c) = (toBytes c).take n := by
  induction c generalizing n with
  | nil => simp [take, toBytes]
  | cons r rs ih =>
      simp only [take]
      split
      next h =>
          rw [toBytes_cons, toBytes_cons,
            List.take_append_of_le_length (by rw [Run.length_toBytes]; exact h)]
          simp [toBytes, Run.toBytes_take]
      next h =>
          have hr : r.toBytes.length ≤ n := by rw [Run.length_toBytes]; omega
          rw [toBytes_cons, toBytes_cons, ih, List.take_append, Run.length_toBytes,
            List.take_of_length_le hr]

theorem toBytes_drop (n : Nat) (c : Content) : toBytes (drop n c) = (toBytes c).drop n := by
  induction c generalizing n with
  | nil => simp [drop, toBytes]
  | cons r rs ih =>
      simp only [drop]
      split
      next h =>
          rw [toBytes_cons, toBytes_cons, Run.toBytes_drop,
            List.drop_append_of_le_length (by rw [Run.length_toBytes]; omega)]
      next h =>
          have hr : r.toBytes.length ≤ n := by rw [Run.length_toBytes]; omega
          rw [toBytes_cons, ih, List.drop_append, Run.length_toBytes,
            List.drop_of_length_le hr]
          rfl

/-- Resizing cuts off or fills up with zero bytes. -/
theorem toBytes_resize (n : Nat) (c : Content) :
    toBytes (resize n c) = Bytes.padTo n (toBytes c) := by
  unfold resize Bytes.padTo
  have hlen := length_toBytes c
  split
  next h =>
      rw [toBytes_take, hlen, Nat.sub_eq_zero_of_le h]
      simp
  next h =>
      rw [toBytes_append, List.take_of_length_le (by omega), hlen]
      simp [toBytes, Run.toBytes]

/-- Writing inside a file overwrites the region. -/
theorem toBytes_write {offset : Nat} {bytes : Bytes} {c : Content}
    (h : offset ≤ c.length) :
    toBytes (write offset bytes c) = Bytes.overwrite offset bytes (toBytes c) := by
  unfold write
  split
  next hb => subst hb; simp [Bytes.overwrite]
  next =>
      have hlen := length_toBytes c
      rw [toBytes_append, toBytes_resize, toBytes_cons, toBytes_drop, Bytes.padTo,
        Nat.sub_eq_zero_of_le (by omega)]
      simp [Bytes.overwrite, Run.toBytes]

theorem read_eq (offset n : Nat) (c : Content) :
    read offset n c = ((toBytes c).drop offset).take n := by
  rw [read, toBytes_take, toBytes_drop]

end Content

end SessionEngine

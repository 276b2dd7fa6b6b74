import SessionEngine.Bytes

/-!
# Receive buffers

A connection reads into one fixed stretch of memory, ten times as long as a
nominal read. Bytes arrive in the free tail behind `writePos` and are
consumed from the front at `readPos`:

    0 ...... readPos ...... writePos ...... capacity
      consumed       unread          free

Only `compact` moves bytes, and only when the free tail has become shorter
than one nominal read. The memory is never cleared: bytes committed without
having been copied show what lay there before. At first it is all zero, so only
the front of it that was in use is kept.

Lengths are words of 64 bits in a machine. Memory for longer reads than
`maxNominal` has no such length and cannot be had, so a buffer for them is one
that no connection reads into.
-/

namespace SessionEngine

/-- The staging memory of one connection. -/
structure ReceiveBuffer where
  /-- Length of a nominal read. -/
  nominal : Nat
  /-- The front of the memory, consumed and free parts included. All behind it
  is zero. -/
  memory : Bytes
  /-- Where the unread bytes start. -/
  readPos : Nat
  /-- Where the unread bytes end and the free tail starts. -/
  writePos : Nat

namespace ReceiveBuffer

/-- How many nominal reads the memory holds. -/
def readsHeld : Nat := 10

/-- The longest nominal read whose memory has a length that is a word. -/
def maxNominal : Nat := (UInt64.size - 1) / readsHeld

/-- An empty buffer for nominal reads of this length. -/
def empty (nominal : Nat) : ReceiveBuffer where
  nominal := nominal
  memory := []
  readPos := 0
  writePos := 0

def capacity (b : ReceiveBuffer) : Nat := readsHeld * b.nominal

def size (b : ReceiveBuffer) : Nat := b.writePos - b.readPos

def free (b : ReceiveBuffer) : Nat := b.capacity - b.writePos

def data (b : ReceiveBuffer) : Bytes := (b.memory.drop b.readPos).take b.size

/-- Copies bytes into the free tail and counts them as arrived. Refused if
they do not fit. -/
def write? (bytes : Bytes) (b : ReceiveBuffer) : Option ReceiveBuffer :=
  if bytes.length ≤ b.free then
    some
      { b with
        memory := Bytes.overwrite b.writePos bytes b.memory
        writePos := b.writePos + bytes.length }
  else none

/-- What lies in the first `n` bytes of the free tail. -/
def lying (n : Nat) (b : ReceiveBuffer) : Bytes :=
  Bytes.padTo n ((b.memory.drop b.writePos).take n)

/-- Counts the first `n` bytes of the free tail as arrived, whatever lies
there. Refused if the tail is shorter. -/
def commit? (n : Nat) (b : ReceiveBuffer) : Option ReceiveBuffer :=
  if n ≤ b.free then b.write? (b.lying n) else none

/-- Counts `n` unread bytes as consumed. Refused if there are fewer. -/
def consume? (n : Nat) (b : ReceiveBuffer) : Option ReceiveBuffer :=
  if n ≤ b.size then some { b with readPos := b.readPos + n } else none

/-- Makes room: an empty buffer starts over, and a short free tail is
lengthened by moving the unread bytes to the front. -/
def compact (b : ReceiveBuffer) : ReceiveBuffer :=
  if b.size = 0 then { b with readPos := 0, writePos := 0 }
  else if b.free < b.nominal then
    { b with memory := Bytes.overwrite 0 b.data b.memory, readPos := 0, writePos := b.size }
  else b

end ReceiveBuffer

end SessionEngine

import SessionEngine.Bytes

/-!
# Frames

A connection carries frames, one after the other:

    +----------------+----------------+-----------------------+
    | size, 2 bytes  |  id, 2 bytes   | body, size - 4 bytes  |
    +----------------+----------------+-----------------------+

Both integers are little-endian, and the size counts the header. A size
below that of the header can never be a frame: the sender is out of step and
the connection is not worth keeping.

- `front` looks at the front of the unread bytes and says whether a whole
  frame stands there;
- `split` takes whole frames off the front until one of them is refused or
  what is left is no whole frame;
- `build?` writes a frame, if it fits into one chunk of a send buffer;
- `body` opens a frame, checking only that the body is long enough.
-/

namespace SessionEngine

/-! ## Headers -/

structure Header where
  /-- Length of the whole frame. -/
  size : UInt16
  /-- Says what the body means. -/
  id : UInt16
deriving DecidableEq, Repr

namespace Header

def length : Nat := 4

/-- The header at the front, if that many bytes are there. -/
def parse? (bs : Bytes) : Option Header :=
  if (bs.take length).length < length then none
  else some ⟨Bytes.word16 0 bs, Bytes.word16 2 bs⟩

def encode (h : Header) : Bytes :=
  Bytes.ofWord16 h.size ++ Bytes.ofWord16 h.id

/-- The length of the body that a header declares. -/
def bodyLength (h : Header) : Nat :=
  h.size.toNat - length

@[simp] theorem length_encode (h : Header) : h.encode.length = 4 := by
  simp [encode]

theorem parse?_encode_append (h : Header) (rest : Bytes) :
    parse? (h.encode ++ rest) = some h := by
  have hsize : Bytes.word16 0 (h.encode ++ rest) = h.size := by
    rw [encode, List.append_assoc]
    exact Bytes.word16_append [] _ h.size rfl
  have hid : Bytes.word16 2 (h.encode ++ rest) = h.id := by
    rw [encode]
    exact Bytes.word16_append (Bytes.ofWord16 h.size) rest h.id (by simp)
  rw [parse?, if_neg (by simp [length]), hsize, hid]

end Header

/-! ## What can be wrong with a frame -/

/-- Why a byte string is refused as a frame. -/
inductive FrameError where
  | invalidSize (size : UInt16)
  /-- The frame ends before what its id calls for. -/
  | truncated (id : UInt16) (needed available : Nat)
  /-- The id has no meaning here. -/
  | unexpectedId (id : UInt16)
deriving DecidableEq, Repr

namespace FrameError

def message : FrameError → String
  | invalidSize size => s!"packet size {size} is smaller than the 4-byte header"
  | truncated id needed available =>
      s!"packet {id} truncated: need {needed} bytes, have {available}"
  | unexpectedId id => s!"unexpected packet id {id}"

end FrameError

namespace Frame

/-! ## Taking frames off a stream -/

/-- What stands at the front of the unread bytes. -/
inductive Front where
  /-- Not a whole frame yet. -/
  | incomplete
  /-- A header that no frame can have. -/
  | malformed (size : UInt16)
  /-- A whole frame, and the bytes behind it. -/
  | whole (frame rest : Bytes)

/-- Looks at the front of the unread bytes. -/
def front (data : Bytes) : Front :=
  match Header.parse? data with
  | none => .incomplete
  | some header =>
      if header.size.toNat < Header.length then .malformed header.size
      else if (data.take header.size.toNat).length < header.size.toNat then .incomplete
      else .whole (data.take header.size.toNat) (data.drop header.size.toNat)

/-- A frame and the bytes behind it are the bytes looked at. -/
theorem append_of_front_eq_whole {data frame rest : Bytes}
    (h : front data = .whole frame rest) : frame ++ rest = data := by
  unfold front at h
  split at h
  · cases h
  · split at h
    · cases h
    · split at h
      · cases h
      · cases h
        exact List.take_append_drop ..

/-- A frame has at least the length of a header. -/
theorem le_length_of_front_eq_whole {data frame rest : Bytes}
    (h : front data = .whole frame rest) : Header.length ≤ frame.length := by
  unfold front at h
  split at h
  · cases h
  · split at h
    · cases h
    · split at h
      · cases h
      · cases h
        omega

theorem length_rest_lt {data frame rest : Bytes}
    (h : front data = .whole frame rest) : rest.length < data.length := by
  have hlen := le_length_of_front_eq_whole h
  rw [← append_of_front_eq_whole h, List.length_append]
  unfold Header.length at hlen
  omega

/-- Takes frames off the front of `data`, `consumed` bytes having been taken
before. `dispatch` gets each whole frame and says whether to go on. -/
def splitFrom {σ : Type} (dispatch : σ → Bytes → σ × Bool) (s : σ) (consumed : Nat)
    (data : Bytes) : σ × Except FrameError Nat :=
  match _whole : front data with
  | .incomplete => (s, .ok consumed)
  | .malformed size => (s, .error (.invalidSize size))
  | .whole frame rest =>
      match dispatch s frame with
      | (s, true) => splitFrom dispatch s (consumed + frame.length) rest
      | (s, false) => (s, .ok (consumed + frame.length))
termination_by data.length
decreasing_by exact length_rest_lt _whole

/-- Takes whole frames off the front of `data` and says how many bytes they
have. The frame that `dispatch` stops at counts as taken; an impossible header
is an error, whatever was taken before it. -/
def split {σ : Type} (dispatch : σ → Bytes → σ × Bool) (s : σ) (data : Bytes) :
    σ × Except FrameError Nat :=
  splitFrom dispatch s 0 data

/-! ## Writing and opening one frame -/

/-- The longest frame: one chunk of a send buffer holds it. -/
def maxLength : Nat := 6000

/-- The frame with this id and body, if it is not too long. -/
def build? (id : UInt16) (body : Bytes) : Option Bytes :=
  let size := Header.length + body.length
  if size ≤ maxLength then some ((Header.mk (UInt16.ofNat size) id).encode ++ body)
  else none

/-- The header and the body of a frame whose body has at least `needed` bytes.
The body is all that follows the header, whatever size the header declares. -/
def body (needed : Nat) (frame : Bytes) : Except FrameError (Header × Bytes) :=
  match Header.parse? frame with
  | none => .error (.truncated 0 Header.length frame.length)
  | some header =>
      let body := frame.drop Header.length
      if body.length < needed then .error (.truncated header.id needed body.length)
      else .ok (header, body)

/-- Opening a frame that was built gives its id, its true size and its body. -/
theorem body_of_build? {id : UInt16} {content frame : Bytes} {needed : Nat}
    (h : build? id content = some frame) (hneeded : needed ≤ content.length) :
    body needed frame = .ok (⟨UInt16.ofNat frame.length, id⟩, content) := by
  simp only [build?] at h
  split at h
  · cases h
    have hdrop : ∀ header : Header,
        (header.encode ++ content).drop Header.length = content := fun header => by
      simp [Header.length]
    rw [body, Header.parse?_encode_append]
    simp only [hdrop]
    rw [if_neg (by omega)]
    simp [Header.length]
  · cases h

end Frame

end SessionEngine

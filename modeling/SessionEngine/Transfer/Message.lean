import SessionEngine.Frame
import SessionEngine.Text.Utf8

/-!
# File transfer messages

A file is announced by a request, travels in chunks, and is accompanied by
notices that carry nothing but the transfer id: the response to a request,
the confirmation of a complete file, and the refusal of a request or a chunk.
The id is always the one that the sender of the file gave out.
-/

namespace SessionEngine

namespace Transfer

/-- Names a transfer, on the side that gave it out. -/
abbrev TransferId := UInt32

/-! ## Frame ids -/

/-- What a file transfer frame is. -/
inductive Kind where
  | request
  | response
  | chunk
  | complete
  | error
deriving DecidableEq, Repr

namespace Kind

def id : Kind → UInt16
  | request => 100
  | response => 101
  | chunk => 102
  | complete => 103
  | error => 104

/-- What a frame id stands for, if it belongs to file transfers. -/
def ofId? (n : UInt16) : Option Kind :=
  if n = 100 then some request
  else if n = 101 then some response
  else if n = 102 then some chunk
  else if n = 103 then some complete
  else if n = 104 then some error
  else none

theorem ofId?_id (k : Kind) : ofId? k.id = some k := by
  cases k <;> rfl

end Kind

/-! ## Requests -/

def nameLength : Nat := 256

/-- Announces a file. -/
structure Request where
  fileName : String
  fileSize : UInt64
  chunksTotal : UInt32
  chunkSize : UInt32
  id : TransferId
deriving DecidableEq

namespace Request

def bodyLength : Nat := nameLength + 20

/-- The body of a request. The name is cut so that a zero byte follows it. -/
def body (r : Request) : Bytes :=
  Bytes.padTo nameLength (Utf8.encode (Utf8.truncate (nameLength - 1) r.fileName)) ++
    Bytes.ofWord64 r.fileSize ++ Bytes.ofWord32 r.chunksTotal ++
    Bytes.ofWord32 r.chunkSize ++ Bytes.ofWord32 r.id

def decode (frame : Bytes) : Except FrameError Request :=
  (Frame.body bodyLength frame).map fun (_, body) =>
    { fileName := Utf8.decodeLossy (Bytes.beforeNul (body.take nameLength))
      fileSize := Bytes.word64 nameLength body
      chunksTotal := Bytes.word32 (nameLength + 8) body
      chunkSize := Bytes.word32 (nameLength + 12) body
      id := Bytes.word32 (nameLength + 16) body }

end Request

/-! ## Chunks -/

/-- What precedes the payload of a chunk. -/
structure Chunk where
  id : TransferId
  /-- The place of the chunk in the file, counted from zero. -/
  index : UInt32
  /-- The length of the payload. -/
  size : UInt32
  isLast : Bool
deriving DecidableEq

namespace Chunk

def headLength : Nat := 13

/-- The longest payload: it fills a frame of the greatest length. -/
def maxPayload : Nat := Frame.maxLength - Header.length - headLength

/-- The body of a chunk frame. The size written is that of the payload. -/
def body (c : Chunk) (payload : Bytes) : Bytes :=
  Bytes.ofWord32 c.id ++ Bytes.ofWord32 c.index ++
    Bytes.ofWord32 (UInt32.ofNat payload.length) ++ [if c.isLast then 1 else 0] ++ payload

/-- The frame of a chunk, if the payload is not too long. -/
def frame? (c : Chunk) (payload : Bytes) : Option Bytes :=
  if payload.length ≤ maxPayload then Frame.build? Kind.chunk.id (c.body payload) else none

/-- Opens a chunk frame. Bytes behind the declared payload are ignored. -/
def decode (frame : Bytes) : Except FrameError (Chunk × Bytes) :=
  match Frame.body headLength frame with
  | .error e => .error e
  | .ok (header, body) =>
      let chunk : Chunk :=
        { id := Bytes.word32 0 body
          index := Bytes.word32 4 body
          size := Bytes.word32 8 body
          isLast := (body[12]?).any (· ≠ 0) }
      let rest := body.drop headLength
      if rest.length < chunk.size.toNat then
        .error (.truncated header.id (headLength + chunk.size.toNat)
          (headLength + rest.length))
      else .ok (chunk, rest.take chunk.size.toNat)

end Chunk

/-! ## Notices -/

namespace Notice

def bodyLength : Nat := 4

def body (id : TransferId) : Bytes := Bytes.ofWord32 id

def decode (frame : Bytes) : Except FrameError TransferId :=
  (Frame.body bodyLength frame).map fun (_, body) => Bytes.word32 0 body

end Notice

end Transfer

end SessionEngine

import SessionEngine.BlockPool
import SessionEngine.Files.Access
import SessionEngine.Transfer.Error

/-!
# One transfer

What is kept about a file under way, in either direction: how much of it has
been moved, and the open file while there is more to move.

`sendFrom` moves the next stretch of a file that is sent, and `writeChunk` puts
a chunk of a file that is received where it belongs. Both leave the record as
it was when they fail, be it that the system fails to read or to write.
-/

namespace SessionEngine

namespace Transfer

/-- Which way a file goes. A received file has an id on the other side. -/
inductive Direction where
  | sending
  | receiving (peer : TransferId)
deriving DecidableEq

/-- Whether a transfer needs more chunks. -/
inductive Progress where
  | more
  | done
deriving DecidableEq, Repr

structure Record where
  direction : Direction
  path : Path
  /-- The number of the file, while it is open. -/
  file : Option Nat
  fileSize : Nat
  bytesTransferred : Nat
  chunkSize : Nat
  chunksTotal : Nat
  chunksCompleted : Nat
  completed : Bool
deriving DecidableEq

namespace Record

/-- The id on the other side, of a file that is received. -/
def peer? (r : Record) : Option TransferId :=
  match r.direction with
  | .sending => none
  | .receiving peer => some peer

/-- A transfer that has moved all it will. -/
def finish (r : Record) : Record := { r with completed := true, file := none }

/-- Counts one more chunk with so many bytes. -/
def count (length : Nat) (r : Record) : Record :=
  { r with
    bytesTransferred := r.bytesTransferred + length
    chunksCompleted := r.chunksCompleted + 1 }

/-! ## Sending -/

/-- How much of the file has not been sent. -/
def remaining (r : Record) : Nat := r.fileSize - r.bytesTransferred

/-- The length of the next chunk to send. -/
def nextLength (r : Record) : Nat := min (min r.remaining r.chunkSize) Chunk.maxPayload

def nextChunk (id : TransferId) (r : Record) : Chunk where
  id := id
  index := UInt32.ofNat r.chunksCompleted
  size := UInt32.ofNat r.nextLength
  isLast := r.remaining = r.nextLength

/-- What an attempt to send a chunk gives. -/
structure Sent where
  /-- The frame to send, if there is one. -/
  frame : Option Bytes
  /-- The transfer after that. -/
  record : Record
  progress : Progress

/-- Reads the next stretch of the file through a block of the pool and makes a
frame of it. The block goes back to the pool in every case. -/
def sendFrom (id : TransferId) (reader : FileReader) (pool : BlockPool) (r : Record) :
    BlockPool × Except TransferError Sent :=
  if r.remaining = 0 then (pool, .ok ⟨none, r, .done⟩)
  else
    match r.file with
    | none => (pool, .error (.io r.path.text .closed))
    | some file =>
        let length := r.nextLength
        let (block, pool) := BlockPool.allocate length pool
        let reading := reader file r.bytesTransferred length
        let block := block.write 0 reading.bytes
        let pool := BlockPool.release block pool
        match reading.failure with
        | some e => (pool, .error (.io r.path.text e))
        | none =>
            match (r.nextChunk id).frame? block.contents with
            | none => (pool, .error .sendBufferUnavailable)
            | some frame =>
                (pool, .ok ⟨some frame, r.count length,
                  if (r.nextChunk id).isLast then .done else .more⟩)

/-! ## Receiving -/

def offset (chunk : Chunk) (r : Record) : Nat := chunk.index.toNat * r.chunkSize

/-- Whether a chunk lies in the file and has the length it declares. -/
def admits (chunk : Chunk) (payload : Bytes) (r : Record) : Bool :=
  payload.length = chunk.size.toNat && chunk.index.toNat < r.chunksTotal &&
    r.offset chunk + payload.length ≤ r.fileSize

/-- Whether nothing more is expected after this chunk has been counted. -/
def endsWith (chunk : Chunk) (r : Record) : Bool :=
  chunk.isLast || r.chunksTotal ≤ r.chunksCompleted || r.fileSize ≤ r.bytesTransferred

/-- Writes a chunk at its place in the file, and counts it if all of it could
be written. -/
def writeChunk (writer : FileWriter) (chunk : Chunk) (payload : Bytes) (disk : Disk) (r : Record) :
    Disk × Except TransferError (Record × Progress) :=
  if r.admits chunk payload then
    match r.file with
    | none => (disk, .error (.io r.path.text .closed))
    | some file =>
        match disk.writeBy writer file (r.offset chunk) payload with
        | (disk, some e) => (disk, .error (.io r.path.text e))
        | (disk, none) =>
            let counted := r.count payload.length
            (disk, .ok (counted, if counted.endsWith chunk then .done else .more))
  else (disk, .error (.chunkOutOfRange chunk.id chunk.index))

end Record

end Transfer

end SessionEngine

import SessionEngine.Frame
import SessionEngine.Table

/-!
# Send buffers

Outgoing frames are written into chunks of 6000 bytes. A sender works in a
*context*, which holds one chunk and cuts finished buffers off the front of
what is still free in it. A finished buffer is a range of its chunk and is
never written again, while the context goes on to the rest of the chunk or,
when the rest is too short, to another chunk.

Chunks that no context holds wait in a pool. A waiting chunk may still have
buffers under way, so it is handed out again only if nobody refers to it, or
if nothing but empty buffers was ever cut from it (`SendChunk.reusable`). The
pool keeps at most 256 chunks; one that is turned away is forgotten, and its
buffers live on by themselves.

`Sending` is a pool together with contexts and buffers under names: every
history of opening, closing, abandoning, copying and dropping is a run of its
operations.
-/

namespace SessionEngine

/-! ## Chunks -/

/-- One stretch of memory that buffers are cut from. -/
structure SendChunk where
  memory : Bytes
  /-- How many bytes at the front belong to buffers. -/
  used : Nat
  /-- How many buffers refer to it. -/
  refs : Nat
deriving DecidableEq

namespace SendChunk

def capacity : Nat := Frame.maxLength

def new : SendChunk := ⟨List.replicate capacity 0, 0, 0⟩

/-- How many bytes can still be cut off. -/
def free (c : SendChunk) : Nat := capacity - c.used

/-- Whether all of the chunk may be written again. -/
def reusable (c : SendChunk) : Bool := c.refs = 0 || c.used = 0

/-- The chunk with all of its bytes free. -/
def rewind (c : SendChunk) : SendChunk := { c with used := 0 }

/-- Clears the first `size` free bytes. -/
def clear (size : Nat) (c : SendChunk) : SendChunk :=
  { c with memory := Bytes.overwrite c.used (List.replicate size 0) c.memory }

def region (size : Nat) (c : SendChunk) : Bytes := (c.memory.drop c.used).take size

def write (bytes : Bytes) (c : SendChunk) : SendChunk :=
  { c with memory := Bytes.overwrite c.used bytes c.memory }

end SendChunk

/-! ## Buffers -/

/-- Bytes that are ready to be sent. -/
inductive SendBuffer where
  /-- A range of the chunk with this number. -/
  | range (chunk offset length : Nat)
  /-- Bytes with memory of their own. -/
  | own (bytes : Bytes)
deriving DecidableEq

/-- What a sender works in: the number of the chunk it fills. -/
structure SendContext where
  /-- The chunk, none before the first buffer was opened. -/
  current : Option Nat
deriving DecidableEq

/-! ## The pool -/

/-- All chunks ever created, by number, and the numbers of the waiting ones. -/
structure SendPool where
  chunks : Array SendChunk
  /-- The waiting chunks, last arrived last. -/
  waiting : List Nat

namespace SendPool

def maxWaiting : Nat := 256

def empty : SendPool := ⟨#[], []⟩

def created (p : SendPool) : Nat := p.chunks.size

def pooled (p : SendPool) : Nat := p.waiting.length

def modify (chunk : Nat) (f : SendChunk → SendChunk) (p : SendPool) : SendPool :=
  { p with chunks := p.chunks.modify chunk f }

/-- Whether the chunk with this number may be written again. -/
def isReusable (p : SendPool) (chunk : Nat) : Bool :=
  (p.chunks[chunk]?).any SendChunk.reusable

/-- The place of the last waiting chunk that may be written again. -/
def lastReusable? (p : SendPool) : Option Nat :=
  (p.waiting.reverse.findIdx? p.isReusable).map (p.waiting.length - 1 - ·)

/-- Takes the chunk at a place out, the last waiting one taking its place. -/
def takeAt (place : Nat) (waiting : List Nat) : List Nat :=
  match waiting.getLast? with
  | none => []
  | some last =>
      if place + 1 = waiting.length then waiting.dropLast
      else (waiting.set place last).dropLast

/-- Hands out a chunk with all of its bytes free: the reusable one that
waits nearest to the end, or a new one. -/
def pop (p : SendPool) : Nat × SendPool :=
  match p.lastReusable?.bind (fun place => p.waiting[place]?.map (place, ·)) with
  | some (place, chunk) =>
      (chunk, { p.modify chunk SendChunk.rewind with waiting := takeAt place p.waiting })
  | none => (p.created, { p with chunks := p.chunks.push SendChunk.new })

/-- Lets a chunk wait, unless too many do. -/
def push (chunk : Nat) (p : SendPool) : SendPool :=
  if p.pooled < maxWaiting then { p with waiting := p.waiting ++ [chunk] } else p

def read (p : SendPool) : SendBuffer → Bytes
  | .range chunk offset length =>
      match p.chunks[chunk]? with
      | some c => (c.memory.drop offset).take length
      | none => []
  | .own bytes => bytes

/-- Counts one more holder of a buffer. -/
def retain (p : SendPool) : SendBuffer → SendPool
  | .range chunk _ _ => p.modify chunk (fun c => { c with refs := c.refs + 1 })
  | .own _ => p

/-- Counts one holder of a buffer less. -/
def drop (p : SendPool) : SendBuffer → SendPool
  | .range chunk _ _ => p.modify chunk (fun c => { c with refs := c.refs - 1 })
  | .own _ => p

end SendPool

/-! ## Contexts -/

namespace SendContext

def new : SendContext := ⟨none⟩

/-- How many bytes can still be cut off the chunk of the context. -/
def free (p : SendPool) (cx : SendContext) : Nat :=
  match cx.current.bind (p.chunks[·]?) with
  | some c => c.free
  | none => 0

/-- Provides a chunk with at least `size` free bytes, keeping the current one
if it has them. -/
def supply (size : Nat) (p : SendPool) (cx : SendContext) : Nat × SendPool :=
  match cx.current with
  | some chunk =>
      if size ≤ cx.free p then (chunk, p) else (p.push chunk).pop
  | none => p.pop

/-- Opens a region of `size` zero bytes: the number of its chunk, and the pool
with the region cleared. Refused if no chunk is that long. -/
def open? (size : Nat) (p : SendPool) (cx : SendContext) : Option (Nat × SendPool) :=
  if size ≤ SendChunk.capacity then
    let (chunk, p) := cx.supply size p
    some (chunk, p.modify chunk (SendChunk.clear size))
  else none

/-- Cuts the first `length` bytes off the open region of a chunk. -/
def close (chunk length : Nat) (p : SendPool) : SendBuffer × SendPool :=
  let offset := (p.chunks[chunk]?).elim 0 SendChunk.used
  (.range chunk offset length,
    p.modify chunk (fun c => { c with used := c.used + length, refs := c.refs + 1 }))

/-- Opens a region, writes at its front and cuts off its first `length` bytes,
all of it if it is shorter. -/
def put? (size : Nat) (bytes : Bytes) (length : Nat) (p : SendPool) (cx : SendContext) :
    Option (SendBuffer × SendPool × SendContext) :=
  match cx.open? size p with
  | none => none
  | some (chunk, p) =>
      let (buffer, p) := close chunk (min length size) (p.modify chunk (SendChunk.write bytes))
      some (buffer, p, ⟨some chunk⟩)

/-- Opens a region, writes at its front and gives all of it back. -/
def abandon? (size : Nat) (bytes : Bytes) (p : SendPool) (cx : SendContext) :
    Option (SendPool × SendContext) :=
  match cx.open? size p with
  | none => none
  | some (chunk, p) => some (p.modify chunk (SendChunk.write bytes), ⟨some chunk⟩)

/-- Writes a frame, if it fits into a chunk. -/
def putFrame? (id : UInt16) (body : Bytes) (p : SendPool) (cx : SendContext) :
    Option (SendBuffer × SendPool × SendContext) :=
  match Frame.build? id body with
  | none => none
  | some frame => cx.put? frame.length frame frame.length p

def drop (p : SendPool) (cx : SendContext) : SendPool :=
  match cx.current with
  | some chunk => p.push chunk
  | none => p

end SendContext

/-! ## Pools with their contexts and buffers -/

/-- A pool together with its contexts and the buffers that are held, each
under a name. -/
structure Sending where
  pool : SendPool
  contexts : Table String SendContext
  buffers : Table String SendBuffer

namespace Sending

def empty : Sending := ⟨SendPool.empty, [], []⟩

def dropContext (name : String) (s : Sending) : Sending :=
  match s.contexts.get? name with
  | some cx => { s with pool := cx.drop s.pool, contexts := s.contexts.erase name }
  | none => s

/-- Starts a context, ending the one of that name. -/
def context (name : String) (s : Sending) : Sending :=
  let s := s.dropContext name
  { s with contexts := s.contexts.insert name .new }

/-- Lets go of a buffer. -/
def dropBuffer (name : String) (s : Sending) : Sending :=
  match s.buffers.get? name with
  | some buffer => { s with pool := s.pool.drop buffer, buffers := s.buffers.erase name }
  | none => s

/-- Keeps a buffer under a name, letting go of the one kept there. -/
def keep (name : String) (buffer : SendBuffer) (s : Sending) : Sending :=
  let s := s.dropBuffer name
  { s with buffers := s.buffers.insert name buffer }

/-- Writes a buffer in a context and keeps it under a name. -/
def put? (cx : String) (size : Nat) (bytes : Bytes) (length : Nat) (name : String)
    (s : Sending) : Option Sending :=
  match (s.contexts.get? cx).bind (SendContext.put? size bytes length s.pool) with
  | some (buffer, pool, context) =>
      some ({ s with pool, contexts := s.contexts.insert cx context }.keep name buffer)
  | none => none

/-- Writes in a context without keeping anything. -/
def abandon? (cx : String) (size : Nat) (bytes : Bytes) (s : Sending) : Option Sending :=
  match (s.contexts.get? cx).bind (SendContext.abandon? size bytes s.pool) with
  | some (pool, context) => some { s with pool, contexts := s.contexts.insert cx context }
  | none => none

/-- Holds a buffer a second time, under another name. -/
def copy (source name : String) (s : Sending) : Sending :=
  match s.buffers.get? source with
  | some buffer => { s with pool := s.pool.retain buffer }.keep name buffer
  | none => s

def read? (name : String) (s : Sending) : Option Bytes :=
  (s.buffers.get? name).map s.pool.read

end Sending

end SessionEngine

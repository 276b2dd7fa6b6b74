import SessionEngine.Transfer.FileName
import SessionEngine.Transfer.Record

/-!
# The transfers of one connection

All transfers of a connection, in both directions, under ids that this side
gives out. Each transfer is reported when it ends, with its outcome and the
path of its file; the reports are kept in the order in which they were made.

A transfer ends in place when its last chunk has been moved (`takeChunkBy`,
`sendNextFrom`): it stays in the book, completed, and can still be asked about.
Every other end takes it out: a failed chunk, the other side giving up
(`abort`), the connection closing (`failActive`), or this side losing
interest (`cancel`), which alone is not reported.

Frames from the other side name a received file by the id that the other side
gave out; of several such transfers, the latest is meant.
-/

namespace SessionEngine

namespace Transfer

/-- What is told about a transfer that ended. -/
structure Report where
  id : TransferId
  success : Bool
  path : String
deriving DecidableEq

structure Transfers where
  /-- The transfers by id, in ascending order. -/
  book : Table TransferId Record
  /-- The id that is given out next. -/
  nextId : TransferId
  /-- Whether anybody listens to reports. -/
  listening : Bool
  /-- The reports made so far. -/
  reports : List Report
  /-- Where chunks to be sent are read into. -/
  pool : BlockPool

namespace Transfers

def empty (listening : Bool) : Transfers where
  book := []
  nextId := 1
  listening := listening
  reports := []
  pool := BlockPool.empty

/-! ## The book -/

/-- Enters a transfer at its place in the order of ids. -/
def enter (id : TransferId) (record : Record) : Table TransferId Record → Table TransferId Record
  | [] => [(id, record)]
  | (k, r) :: rest =>
      if id < k then (id, record) :: (k, r) :: rest
      else if id = k then (id, record) :: rest
      else (k, r) :: enter id record rest

def get? (id : TransferId) (t : Transfers) : Option Record := t.book.get? id

def set (id : TransferId) (record : Record) (t : Transfers) : Transfers :=
  { t with book := t.book.insert id record }

def remove (id : TransferId) (t : Transfers) : Transfers :=
  { t with book := t.book.erase id }

/-- Enters a transfer under the next id. -/
def add (record : Record) (t : Transfers) : TransferId × Transfers :=
  (t.nextId, { t with book := enter t.nextId record t.book, nextId := t.nextId + 1 })

def latest? (condition : Record → Bool) (t : Transfers) : Option (TransferId × Record) :=
  t.book.reverse.find? fun entry => condition entry.2

def report (id : TransferId) (success : Bool) (path : Path) (t : Transfers) : Transfers :=
  if t.listening then { t with reports := t.reports ++ [⟨id, success, path.text⟩] } else t

/-! ## Chunk sizes -/

/-- The payload of a chunk if nothing else is asked for. -/
def defaultChunkSize : Nat := 4096

/-- The pause between two chunks of a file, in milliseconds. -/
def defaultChunkDelay : Nat := 10

/-- The payload of the chunks of a file that is sent: what was asked for, but
not more than fits into a frame. -/
def effectiveChunkSize (requested : UInt32) : Nat :=
  if requested = 0 then defaultChunkSize else min requested.toNat Chunk.maxPayload

def chunkCount (fileSize chunkSize : Nat) : Except TransferError UInt32 :=
  let count := (fileSize + (chunkSize - 1)) / chunkSize
  if count < UInt32.size then .ok (UInt32.ofNat count) else .error (.fileTooLarge fileSize)

/-! ## Sending -/

/-- Opens a file that is to be sent: its number, its bare name and its size. -/
def openSource (disk : Disk) (path : Path) : Except TransferError (Nat × String × Nat) :=
  match disk.stat path with
  | .error e => .error (.io path.text e)
  | .ok .directory => .error (.notAFile path.text)
  | .ok (.file number) =>
      match path.fileName? with
      | none => .error (.invalidFileName path.text)
      | some name => .ok (number, name, disk.lengthOf number)

/-- Enters a file that is to be sent. Gives the id and the frame that
announces it. -/
def send (disk : Disk) (path : Path) (requestedChunkSize : UInt32) (t : Transfers) :
    Transfers × Except TransferError (TransferId × Bytes) :=
  match openSource disk path with
  | .error e => (t, .error e)
  | .ok (number, name, size) =>
      let chunkSize := effectiveChunkSize requestedChunkSize
      match chunkCount size chunkSize with
      | .error e => (t, .error e)
      | .ok chunksTotal =>
          let request : Request :=
            { fileName := name
              fileSize := UInt64.ofNat size
              chunksTotal := chunksTotal
              chunkSize := UInt32.ofNat chunkSize
              id := t.nextId }
          match Frame.build? Kind.request.id request.body with
          | none => ({ t with nextId := t.nextId + 1 }, .error .sendBufferUnavailable)
          | some frame =>
              let (id, t) := t.add
                { direction := .sending
                  path := path
                  file := some number
                  fileSize := size
                  bytesTransferred := 0
                  chunkSize := chunkSize
                  chunksTotal := chunksTotal.toNat
                  chunksCompleted := 0
                  completed := false }
              (t, .ok (id, frame))

/-- Sends the next chunk of a file. The frame, if there is one, is to be
sent in any case; after `more` the next chunk is due. -/
def sendNextFrom (connected : Bool) (reader : FileReader) (id : TransferId) (t : Transfers) :
    Transfers × Option Bytes × Except TransferError Progress :=
  match t.get? id with
  | none => (t, none, .error (.unknownTransfer id))
  | some record =>
      match record.direction with
      | .receiving _ => (t, none, .error (.wrongDirection id))
      | .sending =>
          if record.completed then (t, none, .ok .done)
          else
            let (pool, outcome) :=
              if connected then record.sendFrom id reader t.pool
              else (t.pool, .error (.disconnected id))
            let t := { t with pool }
            match outcome with
            | .ok ⟨frame, record, .more⟩ => (t.set id record, frame, .ok .more)
            | .ok ⟨frame, record, .done⟩ =>
                ((t.set id record.finish).report id true record.path, frame, .ok .done)
            | .error e => ((t.remove id).report id false record.path, none, .error e)

/-- Reports that a file could not be sent at all, under an id of its own. -/
def reportFailedSend (path : Path) (t : Transfers) : TransferId × Transfers :=
  (t.nextId, { t with nextId := t.nextId + 1 }.report t.nextId false path)

/-! ## Receiving -/

/-- The name for a file that was announced, if the announcement is sound. -/
def acceptedName (request : Request) : Except TransferError String :=
  match FileName.sanitize request.fileName with
  | .error e => .error e
  | .ok name =>
      if request.chunkSize = 0 then .error .zeroChunkSize
      else
        match chunkCount request.fileSize.toNat request.chunkSize.toNat with
        | .error e => .error e
        | .ok expected =>
            if expected = request.chunksTotal then .ok name
            else .error (.chunkCount request.chunksTotal.toNat expected.toNat)

/-- Renames the file of this name in a directory, if it is there, by appending
to its name. A file that cannot be renamed stays. -/
def backUp (disk : Disk) (dir : Path) (name : String) : Disk :=
  let path := dir.join name
  if disk.present path then
    match disk.rename path (path.sibling (name ++ ".bak")) with
    | .ok disk => disk
    | .error _ => disk
  else disk

/-- Makes a file of this name and size in a directory, which is made as well.
Gives the number of the file. -/
def openTarget (disk : Disk) (dir : Path) (name : String) (size : Nat) :
    Disk × Except TransferError Nat :=
  let path := dir.join name
  match disk.makeDirectories dir with
  | (disk, .error e) => (disk, .error (.io dir.text e))
  | (disk, .ok ()) =>
      let disk := backUp disk dir name
      match disk.create path with
      | .error e => (disk, .error (.io path.text e))
      | .ok (number, disk) =>
          match disk.setLength number size with
          | .error e => (disk, .error (.io path.text e))
          | .ok disk => (disk, .ok number)

/-- Enters a file that was announced, and makes room for it on the disk. An
empty file is complete at once. -/
def receive (disk : Disk) (dir : Path) (request : Request) (t : Transfers) :
    Transfers × Disk × Except TransferError TransferId :=
  match acceptedName request with
  | .error e => (t, disk, .error e)
  | .ok name =>
      match openTarget disk dir name request.fileSize.toNat with
      | (disk, .error e) => (t, disk, .error e)
      | (disk, .ok number) =>
          let isEmpty : Bool := request.fileSize = 0
          let record : Record :=
            { direction := .receiving request.id
              path := dir.join name
              file := if isEmpty then none else some number
              fileSize := request.fileSize.toNat
              bytesTransferred := 0
              chunkSize := request.chunkSize.toNat
              chunksTotal := request.chunksTotal.toNat
              chunksCompleted := 0
              completed := isEmpty }
          let (id, t) := t.add record
          (if isEmpty then t.report id true record.path else t, disk, .ok id)

/-- The transfer that a chunk from the other side belongs to. -/
def target? (peer : TransferId) (t : Transfers) : Option (TransferId × Record) :=
  t.latest? fun r => r.peer? = some peer && !r.completed

/-- Puts a chunk where it belongs. -/
def takeChunkBy (writer : FileWriter) (disk : Disk) (chunk : Chunk) (payload : Bytes)
    (t : Transfers) : Transfers × Disk × Except TransferError Progress :=
  match t.target? chunk.id with
  | none => (t, disk, .error (.unknownTransfer chunk.id))
  | some (id, record) =>
      match record.writeChunk writer chunk payload disk with
      | (disk, .ok (record, .more)) => (t.set id record, disk, .ok .more)
      | (disk, .ok (record, .done)) =>
          ((t.set id record.finish).report id true record.path, disk, .ok .done)
      | (disk, .error e) => ((t.remove id).report id false record.path, disk, .error e)

/-- Puts a chunk where it belongs, on a disk that takes everything. -/
def takeChunk (disk : Disk) (chunk : Chunk) (payload : Bytes) (t : Transfers) :
    Transfers × Disk × Except TransferError Progress :=
  t.takeChunkBy .unfailing disk chunk payload

/-! ## Ending transfers -/

/-- Takes a transfer out without a word. -/
def cancel (id : TransferId) (t : Transfers) : Bool × Transfers :=
  ((t.get? id).isSome, t.remove id)

/-- Takes out a transfer that the other side gave up. -/
def abort (id : TransferId) (t : Transfers) : Bool × Transfers :=
  match t.get? id with
  | some record => (true, (t.remove id).report id false record.path)
  | none => (false, t)

/-- The transfers that are not complete. -/
def activeEntries (t : Transfers) : List (TransferId × Record) :=
  t.book.filter fun entry => !entry.2.completed

/-- How many transfers are not complete. -/
def active (t : Transfers) : Nat := t.activeEntries.length

/-- Takes out all transfers that are not complete. Says how many. -/
def failActive (t : Transfers) : Nat × Transfers :=
  (t.active,
    t.activeEntries.foldl
      (fun rest (id, record) => rest.report id false record.path)
      { t with book := t.book.filter fun entry => entry.2.completed })

/-! ## Looking up -/

/-- The latest transfer that the other side announced under this id. -/
def receivingId? (peer : TransferId) (t : Transfers) : Option TransferId :=
  (t.latest? fun r => r.peer? = some peer).map Prod.fst

/-- The transfer that a notice from the other side is about: one that this
side sends under the id, else the latest that the other side announced. -/
def noticeTarget? (id : TransferId) (t : Transfers) : Option TransferId :=
  match (t.get? id).map Record.direction with
  | some .sending => some id
  | _ => t.receivingId? id

end Transfers

end Transfer

end SessionEngine

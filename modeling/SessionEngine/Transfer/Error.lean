import SessionEngine.Files.Disk
import SessionEngine.Text.Quoted
import SessionEngine.Transfer.Message

/-!
# What can go wrong with a transfer

The causes, and the words for them.
-/

namespace SessionEngine

namespace Transfer

/-- Why an operation on transfers fails. -/
inductive TransferError where
  /-- The file at a path cannot be used. -/
  | io (path : String) (cause : FileError)
  /-- What is to be sent is no file. -/
  | notAFile (path : String)
  /-- The announced name is no name for a file. -/
  | invalidFileName (name : String)
  /-- The file has more chunks than can be numbered. -/
  | fileTooLarge (size : Nat)
  /-- The request has chunks of length zero. -/
  | zeroChunkSize
  /-- The request announces another number of chunks than its sizes give. -/
  | chunkCount (announced expected : Nat)
  | unknownTransfer (id : TransferId)
  | wrongDirection (id : TransferId)
  /-- The chunk does not lie in the file. -/
  | chunkOutOfRange (id : TransferId) (index : UInt32)
  /-- The frame does not fit into a send buffer. -/
  | sendBufferUnavailable
  | disconnected (id : TransferId)
deriving DecidableEq, Repr

namespace TransferError

def message : TransferError → String
  | io path cause => s!"I/O error on {path}: {cause.message}"
  | notAFile path => s!"{path} is not a regular file"
  | invalidFileName name => "invalid file name " ++ Quoted.encode name
  | fileTooLarge size => s!"file of {size} bytes needs more than u32::MAX chunks"
  | zeroChunkSize => "invalid transfer request: zero chunk size"
  | chunkCount announced expected =>
      s!"invalid transfer request: {announced} chunks announced, {expected} expected"
  | unknownTransfer id => s!"unknown transfer {id}"
  | wrongDirection id => s!"transfer {id} is not in the expected direction"
  | chunkOutOfRange id index => s!"chunk {index} of transfer {id} is outside the file"
  | sendBufferUnavailable => "no send buffer available"
  | disconnected id => s!"session closed during transfer {id}"

end TransferError

end Transfer

end SessionEngine

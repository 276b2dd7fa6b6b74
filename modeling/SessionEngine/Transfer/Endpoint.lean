import SessionEngine.Session.Handler
import SessionEngine.Transfer.Transfers

/-!
# Endpoints of file transfers

An endpoint is one side of a connection that carries files: its transfers,
its disk, the directory for what it receives, and the file, if any, that it
sends as soon as it is connected.

Chunks are not sent by the frame that calls for them but become *due*, at once
after a response and after a pause behind the chunk before. Whoever runs the
endpoint sends what is due (`sendChunk`).

Requests and chunks are answered with notices; notices are never answered.
-/

namespace SessionEngine

namespace Transfer

/-- A chunk that is to be sent after a pause. -/
structure Due where
  id : TransferId
  /-- The pause in milliseconds. -/
  delay : Nat
deriving DecidableEq

/-- One side of a connection that carries files. -/
structure Endpoint where
  transfers : Transfers
  disk : Disk
  receiveDir : Path
  /-- The file to send when connected, and the chunk size asked for. -/
  outgoing : Option (Path × UInt32)
  /-- The pause between two chunks of a file. -/
  chunkDelay : Nat
  /-- The chunks to be sent. -/
  due : List Due

namespace Endpoint

/-- The directory for received files if nothing else is asked for. -/
def defaultReceiveDir : String := "./received_files"

/-! ## Notices -/

def notify (kind : Kind) (id : TransferId) : List Action :=
  (Frame.build? kind.id (Notice.body id)).toList.map .send

/-- Answers a request: with a response if the transfer was entered, and with
the confirmation as well if there is nothing to wait for. -/
def onRequest (request : Request) (e : Endpoint) : Endpoint × List Action :=
  match e.transfers.receive e.disk e.receiveDir request with
  | (transfers, disk, .ok _) =>
      ({ e with transfers, disk },
        notify .response request.id ++
          if request.fileSize = 0 then notify .complete request.id else [])
  | (transfers, disk, .error _) => ({ e with transfers, disk }, notify .error request.id)

/-- Answers a chunk that ends its transfer, in one way or the other. -/
def onChunk (writer : FileWriter) (chunk : Chunk) (payload : Bytes) (e : Endpoint) :
    Endpoint × List Action :=
  match e.transfers.takeChunkBy writer e.disk chunk payload with
  | (transfers, disk, .ok .more) => ({ e with transfers, disk }, [])
  | (transfers, disk, .ok .done) => ({ e with transfers, disk }, notify .complete chunk.id)
  | (transfers, disk, .error _) => ({ e with transfers, disk }, notify .error chunk.id)

/-- The other side accepts a file: its first chunk is due. -/
def startSending (id : TransferId) (e : Endpoint) : Endpoint :=
  { e with due := e.due ++ [⟨id, 0⟩] }

/-- The other side gives a transfer up. -/
def onRefusal (id : TransferId) (e : Endpoint) : Endpoint :=
  match e.transfers.noticeTarget? id with
  | some target => { e with transfers := (e.transfers.abort target).2 }
  | none => e

/-- The reaction to a frame of a file transfer, unless it is malformed. -/
def accept (writer : FileWriter) (kind : Kind) (frame : Bytes) (e : Endpoint) :
    Except FrameError (Endpoint × List Action) :=
  match kind with
  | .request => (Request.decode frame).map fun request => e.onRequest request
  | .response => (Notice.decode frame).map fun id => (e.startSending id, [])
  | .chunk => (Chunk.decode frame).map fun (chunk, payload) => e.onChunk writer chunk payload
  | .complete => (Notice.decode frame).map fun _ => (e, [])
  | .error => (Notice.decode frame).map fun id => (e.onRefusal id, [])

/-- What kind of file transfer frame a frame is, if it is one. -/
def kindOf? (frame : Bytes) : Option Kind :=
  (Header.parse? frame).bind fun header => Kind.ofId? header.id

def packetOf (writer : FileWriter) (kind : Kind) (frame : Bytes) (e : Endpoint) :
    Endpoint × List Action :=
  match e.accept writer kind frame with
  | .ok reaction => reaction
  | .error _ => (e, [.disconnect])

def packetBy (writer : FileWriter) (frame : Bytes) (e : Endpoint) : Endpoint × List Action :=
  match kindOf? frame with
  | some kind => e.packetOf writer kind frame
  | none => (e, [])

/-- The reaction to a frame on a disk that takes everything. -/
def packet (frame : Bytes) (e : Endpoint) : Endpoint × List Action := e.packetBy .unfailing frame

/-! ## Sending files -/

def sendFile (path : Path) (chunkSize : UInt32) (e : Endpoint) :
    Endpoint × List Action × Except TransferError TransferId :=
  match e.transfers.send e.disk path chunkSize with
  | (transfers, .ok (id, frame)) => ({ e with transfers }, [.send frame], .ok id)
  | (transfers, .error error) => ({ e with transfers }, [], .error error)

/-- Sends the next chunk of a file. If more are to come, the next is due after
the pause. -/
def sendChunkFrom (reader : FileReader) (id : TransferId) (connected : Bool) (e : Endpoint) :
    Endpoint × List Action × Except TransferError Progress :=
  let (transfers, frame, outcome) := e.transfers.sendNextFrom connected reader id
  let e := { e with transfers }
  let e := match outcome with
    | .ok .more => { e with due := e.due ++ [⟨id, e.chunkDelay⟩] }
    | _ => e
  (e, frame.toList.map .send, outcome)

/-- Sends the next chunk of a file on the disk. -/
def sendChunk (id : TransferId) (connected : Bool) (e : Endpoint) :
    Endpoint × List Action × Except TransferError Progress :=
  e.sendChunkFrom e.disk.reader id connected

/-- Sends the chunk that is due at a place of the list. -/
def sendDueFrom (reader : FileReader) (place : Nat) (connected : Bool) (e : Endpoint) :
    Endpoint × List Action :=
  match e.due[place]? with
  | none => (e, [])
  | some d =>
      let (e, actions, _) :=
        { e with due := e.due.eraseIdx place }.sendChunkFrom reader d.id connected
      (e, actions)

/-- Sends the chunk that is due at a place, of a file on the disk. -/
def sendDue (place : Nat) (connected : Bool) (e : Endpoint) : Endpoint × List Action :=
  e.sendDueFrom e.disk.reader place connected

/-- Announces the outgoing file, or reports that it cannot be sent. -/
def onConnected (e : Endpoint) : Endpoint × List Action :=
  match e.outgoing with
  | none => (e, [])
  | some (path, chunkSize) =>
      match e.sendFile path chunkSize with
      | (e, actions, .ok _) => (e, actions)
      | (e, actions, .error _) =>
          ({ e with transfers := (e.transfers.reportFailedSend path).2 }, actions)

/-- Reports that the outgoing file cannot be sent. -/
def onConnectFailed (e : Endpoint) : Endpoint :=
  match e.outgoing with
  | none => e
  | some (path, _) => { e with transfers := (e.transfers.reportFailedSend path).2 }

/-- No transfer goes on without its connection. -/
def onDisconnected (e : Endpoint) : Endpoint :=
  { e with transfers := e.transfers.failActive.2 }

def handler : PacketHandler Endpoint where
  connected := onConnected
  connectFailed _ := onConnectFailed
  packet := packet
  disconnected := onDisconnected

end Endpoint

end Transfer

end SessionEngine

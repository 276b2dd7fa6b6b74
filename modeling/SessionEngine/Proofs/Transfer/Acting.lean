import SessionEngine.Proofs.Transfer.Message
import SessionEngine.Proofs.Transfer.Operations

/-!
# What endpoints do to their transfers

An endpoint reacts to the messages of the other side (`Message.answer`) and
does something of its own accord (`Act`). Either way, all that happens to its
transfers is a run of operations (`Message.transfers_answer`,
`Act.transfers_perform`), and what it answers are notices about the transfer
that it was asked about (`Message.notices_answer`).
-/

namespace SessionEngine

namespace Transfer

/-! ## Messages -/

/-- What a file transfer frame says. -/
inductive Message where
  | request (request : Request)
  | response (id : TransferId)
  | chunk (chunk : Chunk) (payload : Bytes)
  | complete (id : TransferId)
  | error (id : TransferId)

namespace Message

/-- The transfer that a message is about, by its id at the sender of the
file. -/
def id : Message → TransferId
  | request r => r.id
  | response id => id
  | chunk c _ => c.id
  | complete id => id
  | error id => id

/-- Whether it is the sender of the file who says this. -/
def bySender : Message → Bool
  | request _ => true
  | response _ => false
  | chunk _ _ => true
  | complete _ => false
  | error _ => false

def decode (kind : Kind) (frame : Bytes) : Except FrameError Message :=
  match kind with
  | .request => (Request.decode frame).map request
  | .response => (Notice.decode frame).map response
  | .chunk => (Chunk.decode frame).map fun (c, payload) => chunk c payload
  | .complete => (Notice.decode frame).map complete
  | .error => (Notice.decode frame).map error

/-- Reads a frame, if it is one of a file transfer and not malformed. -/
def read? (frame : Bytes) : Option Message :=
  (Endpoint.kindOf? frame).bind fun kind => (decode kind frame).toOption

def notice? (kind : Kind) (id : TransferId) : Option Message :=
  match kind with
  | .response => some (response id)
  | .complete => some (complete id)
  | .error => some (error id)
  | .request => none
  | .chunk => none

def answer (writer : FileWriter) (e : Endpoint) : Message → Endpoint × List Action
  | request r => e.onRequest r
  | response id => (e.startSending id, [])
  | chunk c payload => e.onChunk writer c payload
  | complete _ => (e, [])
  | error id => (e.onRefusal id, [])

def operations (writer : FileWriter) (e : Endpoint) : Message → List Operation
  | request r => [.receive e.disk e.receiveDir r]
  | response _ => []
  | chunk c payload => [.takeChunk writer e.disk c payload]
  | complete _ => []
  | error id => (e.transfers.noticeTarget? id).toList.map .abort

section Reading

variable {frame : Bytes}

theorem read?_of_build? {kind : Kind} {content : Bytes} {m : Message}
    (h : Frame.build? kind.id content = some frame) (hdecode : decode kind frame = .ok m) :
    read? frame = some m := by
  rw [read?, kindOf?_of_build? h, Option.bind_some, hdecode]
  rfl

theorem read?_notice {kind : Kind} {id : TransferId} {m : Message}
    (h : notice? kind id = some m) : read? (Notice.frame kind id) = some m := by
  have hbuild := Notice.build?_eq_frame kind id
  refine read?_of_build? hbuild ?_
  cases kind with
  | request | chunk => cases h
  | response | complete | error =>
      cases h
      rw [decode, Notice.decode_of_build? hbuild]
      rfl

theorem read?_chunk {c : Chunk} {payload : Bytes} (h : c.frame? payload = some frame) :
    read? frame = some (chunk { c with size := UInt32.ofNat payload.length } payload) := by
  refine read?_of_build? (Chunk.build?_of_frame? h).2 ?_
  rw [decode, Chunk.decode_of_frame? h]
  rfl

/-- Whatever becomes of the name, the other fields arrive. -/
theorem read?_request {r : Request} (h : Frame.build? Kind.request.id r.body = some frame) :
    ∃ fileName, read? frame = some (request { r with fileName }) := by
  refine ⟨Utf8.untilNul (Request.sentName r.fileName), read?_of_build? h ?_⟩
  rw [decode, Request.decode_of_build?_untilNul h]
  rfl

theorem accept_eq (writer : FileWriter) (kind : Kind) (frame : Bytes) (e : Endpoint) :
    e.accept writer kind frame = (decode kind frame).map (answer writer e) := by
  cases kind with
  | request =>
      rw [decode]
      dsimp only [Endpoint.accept]
      cases Request.decode frame <;> rfl
  | chunk =>
      rw [decode]
      dsimp only [Endpoint.accept]
      cases Chunk.decode frame <;> rfl
  | response | complete | error =>
      rw [decode]
      dsimp only [Endpoint.accept]
      cases Notice.decode frame <;> rfl

/-- What an endpoint does with a frame that it can read. -/
theorem packetBy_of_read? {m : Message} (h : read? frame = some m) (writer : FileWriter)
    (e : Endpoint) : e.packetBy writer frame = m.answer writer e := by
  obtain ⟨kind, hkind, hread⟩ := Option.bind_eq_some_iff.mp h
  rw [Endpoint.packetBy, hkind]
  dsimp only
  rw [Endpoint.packetOf, accept_eq]
  cases hdecode : decode kind frame with
  | error e => rw [hdecode] at hread; cases hread
  | ok m' =>
      rw [hdecode] at hread
      cases hread
      rfl

/-- What an endpoint does with any other frame. -/
theorem packetBy_of_read?_none (h : read? frame = none) (writer : FileWriter) (e : Endpoint) :
    e.packetBy writer frame = (e, []) ∨ e.packetBy writer frame = (e, [.disconnect]) := by
  rw [Endpoint.packetBy]
  cases hkind : Endpoint.kindOf? frame with
  | none => exact Or.inl rfl
  | some kind =>
      rw [read?, hkind, Option.bind_some] at h
      refine Or.inr ?_
      dsimp only
      rw [Endpoint.packetOf, accept_eq]
      cases hdecode : decode kind frame with
      | error e => rfl
      | ok m => rw [hdecode] at h; cases h

end Reading

section Answering

variable (m : Message) (writer : FileWriter) (e : Endpoint)

/-- What is done to the transfers is a run of operations. -/
theorem transfers_answer :
    (m.answer writer e).1.transfers = Operation.run e.transfers (m.operations writer e) := by
  cases m with
  | request r =>
      rw [answer, operations, Endpoint.onRequest, Operation.run_cons, Operation.run_nil,
        Operation.perform]
      split <;> simp only [*]
  | response id => rfl
  | chunk c payload =>
      rw [answer, operations, Endpoint.onChunk, Operation.run_cons, Operation.run_nil,
        Operation.perform]
      split <;> simp only [*]
  | complete id => rfl
  | error id =>
      rw [answer, operations, Endpoint.onRefusal]
      split
      next target htarget => rw [htarget]; rfl
      next htarget => rw [htarget]; rfl

theorem length_operations_le : (m.operations writer e).length ≤ 1 := by
  cases m with
  | request | chunk => exact Nat.le_refl _
  | response | complete => exact Nat.zero_le _
  | error id =>
      rw [operations, List.length_map]
      exact Option.length_toList_le

/-- What is sent are notices about the transfer that the message is about, and
a failure is only told to the sender of a file. -/
theorem notices_answer : ∃ kinds : List Kind,
    (m.answer writer e).2 = (kinds.map fun kind => Notice.frame kind m.id).map .send ∧
      (∀ kind ∈ kinds, ∃ notice, notice? kind m.id = some notice) ∧
      (kinds ≠ [] → m.bySender = true) := by
  cases m with
  | request r =>
      rw [answer, Endpoint.onRequest]
      split
      · by_cases hempty : r.fileSize = 0
        · refine ⟨[.response, .complete], ?_, by simp [notice?], fun _ => rfl⟩
          rw [if_pos hempty, Notice.notify_eq, Notice.notify_eq]
          rfl
        · refine ⟨[.response], ?_, by simp [notice?], fun _ => rfl⟩
          rw [if_neg hempty, Notice.notify_eq]
          rfl
      · refine ⟨[.error], ?_, by simp [notice?], fun _ => rfl⟩
        rw [Notice.notify_eq]
        rfl
  | chunk c payload =>
      rw [answer, Endpoint.onChunk]
      split
      · exact ⟨[], rfl, by simp, fun hne => absurd rfl hne⟩
      · refine ⟨[.complete], ?_, by simp [notice?], fun _ => rfl⟩
        rw [Notice.notify_eq]
        rfl
      · refine ⟨[.error], ?_, by simp [notice?], fun _ => rfl⟩
        rw [Notice.notify_eq]
        rfl
  | response id | complete id | error id =>
      exact ⟨[], rfl, by simp, fun hne => absurd rfl hne⟩

end Answering

end Message

namespace Endpoint

def packetOperations (writer : FileWriter) (frame : Bytes) (e : Endpoint) : List Operation :=
  (Message.read? frame).elim [] (Message.operations writer e)

theorem transfers_packetBy (writer : FileWriter) (frame : Bytes) (e : Endpoint) :
    (e.packetBy writer frame).1.transfers =
      Operation.run e.transfers (e.packetOperations writer frame) := by
  rw [packetOperations]
  cases hread : Message.read? frame with
  | some m =>
      rw [Message.packetBy_of_read? hread]
      exact m.transfers_answer writer e
  | none =>
      rcases Message.packetBy_of_read?_none hread writer e with heq | heq <;> rw [heq] <;> rfl

theorem length_packetOperations_le (writer : FileWriter) (frame : Bytes) (e : Endpoint) :
    (e.packetOperations writer frame).length ≤ 1 := by
  rw [packetOperations]
  cases Message.read? frame with
  | none => exact Nat.zero_le _
  | some m => exact m.length_operations_le writer e

end Endpoint

/-! ## Acts -/

/-- What an endpoint does of its own accord. -/
inductive Act where
  | sendFile (path : Path) (chunkSize : UInt32)
  /-- Sends the chunk that is due at a place of the list. -/
  | sendDue (place : Nat) (reader : FileReader)
  | sendChunk (id : TransferId) (reader : FileReader)
  | cancel (id : TransferId)
  | changeDisk (disk : Disk)

namespace Act

def perform (connected : Bool) (e : Endpoint) : Act → Endpoint × List Action
  | sendFile path chunkSize => ((e.sendFile path chunkSize).1, (e.sendFile path chunkSize).2.1)
  | sendDue place reader => e.sendDueFrom reader place connected
  | sendChunk id reader =>
      ((e.sendChunkFrom reader id connected).1, (e.sendChunkFrom reader id connected).2.1)
  | cancel id => ({ e with transfers := (e.transfers.cancel id).2 }, [])
  | changeDisk disk => ({ e with disk }, [])

def operations (connected : Bool) (e : Endpoint) : Act → List Operation
  | sendFile path chunkSize => [.send e.disk path chunkSize]
  | sendDue place reader => (e.due[place]?).toList.map fun d => .sendNext connected reader d.id
  | sendChunk id reader => [.sendNext connected reader id]
  | cancel id => [.cancel id]
  | changeDisk _ => []

theorem length_operations_le (connected : Bool) (e : Endpoint) (act : Act) :
    (act.operations connected e).length ≤ 1 := by
  cases act with
  | sendFile | sendChunk | cancel => exact Nat.le_refl _
  | sendDue place reader =>
      rw [operations, List.length_map]
      exact Option.length_toList_le
  | changeDisk disk => exact Nat.zero_le _

theorem transfers_sendChunkFrom (reader : FileReader) (id : TransferId) (connected : Bool)
    (e : Endpoint) : (e.sendChunkFrom reader id connected).1.transfers =
      (e.transfers.sendNextFrom connected reader id).1 := by
  rw [Endpoint.sendChunkFrom]
  dsimp only
  split <;> rfl

theorem transfers_perform (connected : Bool) (e : Endpoint) (act : Act) :
    (act.perform connected e).1.transfers =
      Operation.run e.transfers (act.operations connected e) := by
  cases act with
  | sendFile path chunkSize =>
      rw [perform, operations, Endpoint.sendFile, Operation.run_cons, Operation.run_nil,
        Operation.perform]
      split <;> simp only [*]
  | sendDue place reader =>
      rw [perform, operations, Endpoint.sendDueFrom]
      cases hdue : e.due[place]? with
      | none => rfl
      | some d =>
          exact transfers_sendChunkFrom reader d.id connected
            { e with due := e.due.eraseIdx place }
  | sendChunk id reader => exact transfers_sendChunkFrom reader id connected e
  | cancel id => rfl
  | changeDisk disk => rfl

end Act

end Transfer

end SessionEngine

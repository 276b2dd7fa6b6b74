import SessionEngine.Proofs.Transfer.Acting

/-!
# Which way transfers go

A transfer goes the way it was entered to go, however much of it was moved
(`direction?_perform`). An announcement or a chunk is only sent about a
transfer that goes to the other side (`announced_of_send`,
`chunk_of_sendNextFrom`), and a notice of failure is heeded for such a transfer
if there is one under its id (`noticeTarget?_of_sending`).
-/

namespace SessionEngine

namespace Transfer

namespace Transfers

def direction? (id : TransferId) (t : Transfers) : Option Direction :=
  (t.get? id).map Record.direction

section Direction

variable {id other : TransferId} {t t' : Transfers} {direction : Direction}

theorem direction?_of_get? {record : Record} (h : t.get? id = some record) :
    t.direction? id = some record.direction := by
  rw [direction?, h]
  rfl

theorem direction?_congr (h : t'.get? id = t.get? id) : t'.direction? id = t.direction? id := by
  rw [direction?, h, direction?]

@[simp] theorem direction?_report (success : Bool) (path : Path) (t : Transfers) :
    (t.report id success path).direction? other = t.direction? other :=
  direction?_congr (get?_report ..)

/-- Moving a transfer does not turn it. -/
theorem direction?_set {record : Record} (h : t.direction? id = some direction)
    (hrecord : record.direction = direction) (other : TransferId) :
    (t.set id record).direction? other = t.direction? other := by
  by_cases hother : other = id
  · subst hother
    rw [h, direction?_of_get? (get?_set_self other record t), hrecord]
  · exact direction?_congr (get?_set_of_ne hother record t)

theorem direction?_of_remove (h : (t.remove id).direction? other = some direction) :
    t.direction? other = some direction := by
  by_cases hother : other = id
  · subst hother
    rw [direction?, get?_remove_self] at h
    cases h
  · rw [← h]
    exact (direction?_congr (get?_remove_of_ne hother t)).symm

theorem direction?_add (record : Record) (t : Transfers) (id : TransferId) :
    (t.add record).2.direction? id =
      if id = t.nextId then some record.direction else t.direction? id := by
  split
  next hid =>
      subst hid
      exact direction?_of_get? (get?_add_self record t)
  next hid => exact direction?_congr (get?_add_of_ne hid record)

theorem noticeTarget?_of_sending (h : t.direction? id = some .sending) :
    t.noticeTarget? id = some id := by
  rw [direction?] at h
  rw [noticeTarget?, h]

theorem noticeTarget?_of_get?_none (h : t.get? id = none) :
    t.noticeTarget? id = t.receivingId? id := by
  rw [noticeTarget?, h]
  rfl

end Direction

/-! ## Sending chunks -/

theorem direction_of_sendFrom {record : Record} {id : TransferId} {reader : FileReader}
    {pool pool' : BlockPool} {sent : Record.Sent}
    (h : record.sendFrom id reader pool = (pool', .ok sent)) :
    sent.record.direction = record.direction := by
  rcases record.sendFrom_cases id reader pool with ⟨-, heq⟩ | ⟨pool₁, e, heq⟩ |
    ⟨pool₁, payload, frame, -, -, heq⟩
  · cases heq.symm.trans h
    rfl
  · cases heq.symm.trans h
  · cases heq.symm.trans h
    rfl

/-- What is sent of a file is its next chunk. -/
theorem frame_of_sendFrom {record : Record} {id : TransferId} {reader : FileReader}
    {pool pool' : BlockPool} {sent : Record.Sent} {frame : Bytes}
    (h : record.sendFrom id reader pool = (pool', .ok sent)) (hframe : sent.frame = some frame) :
    ∃ payload, (record.nextChunk id).frame? payload = some frame := by
  rcases record.sendFrom_cases id reader pool with ⟨-, heq⟩ | ⟨pool₁, e, heq⟩ |
    ⟨pool₁, payload, built, -, hbuilt, heq⟩
  · cases heq.symm.trans h
    cases hframe
  · cases heq.symm.trans h
  · cases heq.symm.trans h
    cases hframe
    exact ⟨payload, hbuilt⟩

/-- Sending a chunk does nothing, or takes the transfer out, or sends a chunk
of it, if anything, and goes on with it. -/
theorem sendNextFrom_results (connected : Bool) (reader : FileReader) (id : TransferId)
    (t : Transfers) :
    ((t.sendNextFrom connected reader id).1 = t ∧ (t.sendNextFrom connected reader id).2.1 = none) ∨
      ∃ record, t.get? id = some record ∧ record.direction = .sending ∧ ∃ pool,
        (((t.sendNextFrom connected reader id).1 =
            (Transfers.remove id { t with pool }).report id false record.path ∧
          (t.sendNextFrom connected reader id).2.1 = none) ∨
        ∃ moved : Record, moved.direction = .sending ∧
          ((t.sendNextFrom connected reader id).1 = Transfers.set id moved { t with pool } ∨
            (t.sendNextFrom connected reader id).1 =
              (Transfers.set id moved { t with pool }).report id true moved.path) ∧
          ∀ frame, (t.sendNextFrom connected reader id).2.1 = some frame →
            ∃ payload, (record.nextChunk id).frame? payload = some frame) := by
  cases hget : t.get? id with
  | none =>
      rw [sendNextFrom_of_none hget]
      exact Or.inl ⟨rfl, rfl⟩
  | some record =>
      by_cases hdirection : record.direction = .sending
      · cases hcompleted : record.completed with
        | true =>
            rw [sendNextFrom_of_completed hget hdirection hcompleted]
            exact Or.inl ⟨rfl, rfl⟩
        | false =>
            refine Or.inr ⟨record, rfl, hdirection, ?_⟩
            cases connected with
            | false =>
                rw [sendNextFrom_of_disconnected hget hdirection hcompleted]
                exact ⟨t.pool, Or.inl ⟨rfl, rfl⟩⟩
            | true =>
                rw [sendNextFrom_of_connected hget hdirection hcompleted]
                rcases hchunk : record.sendFrom id reader t.pool with ⟨pool, e | sent⟩
                · exact ⟨pool, Or.inl ⟨rfl, rfl⟩⟩
                · have hkept := (direction_of_sendFrom hchunk).trans hdirection
                  have hframe : ∀ frame, sent.frame = some frame →
                      ∃ payload, (record.nextChunk id).frame? payload = some frame :=
                    fun frame => frame_of_sendFrom hchunk
                  obtain ⟨frame, moved, progress⟩ := sent
                  cases progress with
                  | more => exact ⟨pool, Or.inr ⟨moved, hkept, Or.inl rfl, hframe⟩⟩
                  | done => exact ⟨pool, Or.inr ⟨moved.finish, hkept, Or.inr rfl, hframe⟩⟩
      · rw [sendNextFrom_of_receiving hget hdirection]
        exact Or.inl ⟨rfl, rfl⟩

/-- Only chunks of files that go to the other side are sent. -/
theorem chunk_of_sendNextFrom {connected : Bool} {reader : FileReader} {id : TransferId}
    {t : Transfers} {frame : Bytes} (h : (t.sendNextFrom connected reader id).2.1 = some frame) :
    t.direction? id = some .sending ∧
      ∃ c payload, Message.read? frame = some (.chunk c payload) ∧ c.id = id := by
  rcases t.sendNextFrom_results connected reader id with ⟨-, hnone⟩ |
    ⟨record, hget, hdirection, pool, ⟨-, hnone⟩ | ⟨moved, -, -, hframe⟩⟩
  · rw [hnone] at h
    cases h
  · rw [hnone] at h
    cases h
  · obtain ⟨payload, hbuilt⟩ := hframe frame h
    refine ⟨?_, _, payload, Message.read?_chunk hbuilt, rfl⟩
    rw [direction?_of_get? hget, hdirection]

/-- An announcement tells the id under which the file was entered. -/
theorem announced_of_send {disk : Disk} {path : Path} {requested : UInt32} {t t' : Transfers}
    {id : TransferId} {frame : Bytes} (h : t.send disk path requested = (t', .ok (id, frame))) :
    id = t.nextId ∧ ∃ r, Message.read? frame = some (.request r) ∧ r.id = id := by
  rw [send] at h
  split at h
  · cases h
  · dsimp only at h
    split at h
    · cases h
    · split at h
      · cases h
      next built hbuilt =>
          cases h
          obtain ⟨fileName, hread⟩ := Message.read?_request hbuilt
          exact ⟨rfl, _, hread, rfl⟩

/-! ## What is left goes the way it went -/

section Left

variable {id : TransferId} {t : Transfers} {direction : Direction}

theorem direction?_of_takeChunkBy (hd : t.book.Distinct) (writer : FileWriter) (disk : Disk)
    (chunk : Chunk) (payload : Bytes)
    (h : (t.takeChunkBy writer disk chunk payload).1.direction? id = some direction) :
    t.direction? id = some direction := by
  cases htarget : t.target? chunk.id with
  | none =>
      rw [takeChunkBy_of_no_target htarget] at h
      exact h
  | some target =>
      obtain ⟨moving, record⟩ := target
      have hway := direction?_of_get? (Table.get?_of_mem hd (mem_of_target? htarget).1)
      rcases takeChunkBy_cases htarget writer disk payload with
        ⟨number, -, -, heq⟩ | ⟨disk', e, -, heq⟩
      · rw [heq] at h
        split at h
        · rw [direction?_report, direction?_set hway (by rfl)] at h
          exact h
        · dsimp only at h
          rw [direction?_set hway (by rfl)] at h
          exact h
      · rw [heq, direction?_report] at h
        exact direction?_of_remove h

theorem direction?_of_sendNextFrom (connected : Bool) (reader : FileReader) (target : TransferId)
    (h : (t.sendNextFrom connected reader target).1.direction? id = some direction) :
    t.direction? id = some direction := by
  rcases t.sendNextFrom_results connected reader target with ⟨heq, -⟩ |
    ⟨record, hget, hdirection, pool, ⟨heq, -⟩ | ⟨moved, hmoved, heq, -⟩⟩
  · rw [heq] at h
    exact h
  · rw [heq, direction?_report] at h
    exact direction?_of_remove h
  · have hway : direction? target { t with pool } = some .sending := by
      rw [← hdirection]
      exact direction?_of_get? hget
    have hset := direction?_set hway hmoved id
    rcases heq with heq | heq
    · rw [heq, hset] at h
      exact h
    · rw [heq, direction?_report, hset] at h
      exact h

theorem direction?_of_abort (target : TransferId)
    (h : (t.abort target).2.direction? id = some direction) : t.direction? id = some direction := by
  rw [abort] at h
  split at h
  · rw [direction?_report] at h
    exact direction?_of_remove h
  · exact h

theorem direction?_of_failActive (hl : t.listening = true) (hd : t.book.Distinct)
    (h : t.failActive.2.direction? id = some direction) : t.direction? id = some direction := by
  rw [direction?, get?_failActive hl hd] at h
  obtain ⟨record, hkept, hway⟩ := Option.map_eq_some_iff.mp h
  rw [direction?_of_get? (Option.filter_eq_some_iff.mp hkept).1, hway]

end Left

end Transfers

/-! ## Operations -/

namespace Operation

/-- The way of the transfer that an operation may start. -/
def direction? : Operation → Option Direction
  | send _ _ _ => some .sending
  | receive _ _ request => some (.receiving request.id)
  | _ => none

/-- An operation that enters a transfer goes the way of that transfer. -/
theorem direction?_of_add {op : Operation} {t : Transfers} {record : Record} {id : TransferId}
    {direction : Direction} (hstarted : op.started? t = some t.nextId)
    (hdirection : op.direction? = some record.direction)
    (h : (t.add record).2.direction? id = some direction) :
    t.direction? id = some direction ∨
      (id = t.nextId ∧ op.started? t = some id ∧ op.direction? = some direction) := by
  rw [Transfers.direction?_add] at h
  split at h
  next hid => exact Or.inr ⟨hid, hid ▸ hstarted, hdirection.trans h⟩
  next => exact Or.inl h

/-- A transfer goes the way it went before, or was just started. -/
theorem direction?_perform {t : Transfers} (hl : t.listening = true) (hd : t.book.Distinct)
    (op : Operation) {id : TransferId} {direction : Direction}
    (h : (op.perform t).direction? id = some direction) :
    t.direction? id = some direction ∨
      (id = t.nextId ∧ op.started? t = some id ∧ op.direction? = some direction) := by
  cases op with
  | send disk path requested =>
      rcases t.send_cases disk path requested with ⟨e, heq⟩ | ⟨e, heq⟩ |
        ⟨number, size, chunkSize, chunksTotal, frame, heq⟩
      · rw [perform, heq] at h
        exact Or.inl h
      · rw [perform, heq] at h
        exact Or.inl h
      · rw [perform, heq] at h
        exact direction?_of_add (by rw [started?, heq]) rfl h
  | receive disk dir request =>
      rcases t.receive_cases disk dir request with ⟨disk', e, heq⟩ |
        ⟨disk', name, number, -, -, heq⟩
      · rw [perform, heq] at h
        exact Or.inl h
      · have hadded : (t.add (.ofRequest (dir.join name) number request)).2.direction? id =
            some direction := by
          rw [perform, heq] at h
          dsimp only at h
          split at h
          · rw [Transfers.direction?_report] at h
            exact h
          · exact h
        exact direction?_of_add (by rw [started?, heq]) rfl hadded
  | takeChunk writer disk chunk payload =>
      exact Or.inl (Transfers.direction?_of_takeChunkBy hd writer disk chunk payload h)
  | sendNext connected reader target =>
      exact Or.inl (Transfers.direction?_of_sendNextFrom connected reader target h)
  | cancel target => exact Or.inl (Transfers.direction?_of_remove h)
  | abort target => exact Or.inl (Transfers.direction?_of_abort target h)
  | failActive => exact Or.inl (Transfers.direction?_of_failActive hl hd h)
  | reportFailedSend path =>
      rw [perform, Transfers.reportFailedSend, Transfers.direction?_report] at h
      exact Or.inl h

end Operation

end Transfer

end SessionEngine

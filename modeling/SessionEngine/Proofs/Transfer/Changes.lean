import SessionEngine.Proofs.Transfer.Ascending
import SessionEngine.Proofs.Transfer.Completeness
import SessionEngine.Proofs.Transfer.Shipment

/-!
# What an operation does to one record

`Change` says what one operation can do to the record under an id, and
`change_perform` proves it for each operation, whatever the book is like. Which
chunks went into the file of a transfer is read off a run (`Operation.history`).
-/

namespace SessionEngine

namespace Transfer

/-! ## The chunks that were stored -/

namespace Operation

open Transfers

/-- The chunk that an operation stores in the file of a transfer. -/
def stored? (id : TransferId) (op : Operation) (t : Transfers) : Option (Chunk × Bytes) :=
  match op with
  | .takeChunk writer disk chunk payload =>
      if t.acceptsBy writer id chunk payload disk then some (chunk, payload) else none
  | _ => none

/-- The chunks that a run stores in the file of the transfer that it leaves
under this id: all since the last transfer was started there. -/
def history (id : TransferId) : List (Chunk × Bytes) → Transfers → List Operation →
    List (Chunk × Bytes)
  | past, _, [] => past
  | past, t, op :: ops =>
      history id (if op.starts id t then [] else past ++ (op.stored? id t).toList)
        (op.perform t) ops

end Operation

/-! ## Changes -/

/-- What one operation can do to what stands under an id, whether it starts a
transfer there, and which chunk it stores in the file of the one there. -/
inductive Change : (started : Bool) → (stored : Option (Chunk × Bytes)) →
    (before after : Option Record) → Prop where
  | rest (entry : Option Record) : Change false none entry entry
  | gone (entry : Option Record) : Change false none entry none
  | offer (entry : Option Record) (s : Shipment) (path : Path) (number : Nat) :
      Change true none entry (some (s.outgoing path number 0))
  | announce (entry : Option Record) (path : Path) (number : Nat) {request : Request}
      {name : String} (hname : Transfers.acceptedName request = .ok name) :
      Change true none entry (some (.ofRequest path number request))
  | send {record : Record} (hdirection : record.direction = .sending)
      (hactive : record.completed = false) (hremaining : record.remaining ≠ 0) :
      Change false none (some record)
        (some (if record.remaining = record.nextLength then
            (record.count record.nextLength).finish
          else record.count record.nextLength))
  | sendNothing {record : Record} (hdirection : record.direction = .sending)
      (hactive : record.completed = false) (hremaining : record.remaining = 0) :
      Change false none (some record) (some record.finish)
  | store {record : Record} {chunk : Chunk} {payload : Bytes}
      (hdirection : record.direction ≠ .sending) (hactive : record.completed = false)
      (hadmits : record.admits chunk payload = true) :
      Change false (some (chunk, payload)) (some record)
        (some (if (record.count payload.length).endsWith chunk then
            (record.count payload.length).finish
          else record.count payload.length))

namespace Operation

open Transfers

section Change

variable {id : TransferId} {t : Transfers}

/-- What an operation does to the record under this id. -/
def ChangesFor (id : TransferId) (op : Operation) (t : Transfers) : Prop :=
  Change (op.starts id t) (op.stored? id t) (t.get? id) ((op.perform t).get? id)

theorem changesFor_rest {op : Operation} (hstarts : op.starts id t = false)
    (hstored : op.stored? id t = none) (hget : (op.perform t).get? id = t.get? id) :
    op.ChangesFor id t := by
  rw [ChangesFor, hstarts, hstored, hget]
  exact .rest _

theorem changesFor_gone {op : Operation} (hstarts : op.starts id t = false)
    (hstored : op.stored? id t = none) (hget : (op.perform t).get? id = none) :
    op.ChangesFor id t := by
  rw [ChangesFor, hstarts, hstored, hget]
  exact .gone _

/-- An operation that starts a transfer does nothing to the others. -/
theorem changesFor_of_start {op : Operation} {record : Record}
    (hstarted : op.started? t = some t.nextId) (hstored : ∀ id, op.stored? id t = none)
    (hget : ∀ id, (op.perform t).get? id = (t.add record).2.get? id)
    (hstart : ∀ entry, Change true none entry (some record)) : op.ChangesFor id t := by
  by_cases hid : id = t.nextId
  · subst hid
    rw [ChangesFor, starts_eq hstarted, decide_eq_true rfl, hstored, hget, get?_add_self]
    exact hstart _
  · refine changesFor_rest ?_ (hstored id) ?_
    · rw [starts_eq hstarted, decide_eq_false hid]
    · rw [hget, get?_add_of_ne hid]

theorem changesFor_send (disk : Disk) (path : Path) (requested : UInt32) :
    (send disk path requested).ChangesFor id t := by
  rcases t.send_cases disk path requested with ⟨e, heq⟩ | ⟨e, heq⟩ |
    ⟨number, size, chunkSize, chunksTotal, frame, heq⟩
  · refine changesFor_rest (starts_eq_false ?_) rfl ?_
    · rw [started?, heq]
    · rw [perform, heq]
  · refine changesFor_rest (starts_eq_false ?_) rfl ?_
    · rw [started?, heq]
    · rw [perform, heq]
      rfl
  · obtain ⟨number, name, size, chunksTotal, hsource, hcount, -, hsent⟩ :=
      source_of_send (t := t) (by rw [heq])
    obtain ⟨-, hsize⟩ := stat_of_openSource hsource
    rw [hsize] at hcount
    refine changesFor_of_start (by rw [started?, heq]) (fun _ => rfl) (fun other => ?_)
      fun entry => .offer entry
        { Cutting.ofChunkCount (disk.content number).toBytes requested chunksTotal hcount with
          id := t.nextId
          chunkSize_le := Cutting.effectiveChunkSize_le requested } path number
    rw [perform, hsent, hsize, Shipment.outgoing, Cutting.moved_zero]
    rfl

theorem changesFor_receive (disk : Disk) (dir : Path) (request : Request) :
    (receive disk dir request).ChangesFor id t := by
  rcases t.receive_cases disk dir request with ⟨disk', e, heq⟩ |
    ⟨disk', name, number, hname, -, heq⟩
  · refine changesFor_rest (starts_eq_false ?_) rfl ?_
    · rw [started?, heq]
    · rw [perform, heq]
  · refine changesFor_of_start (by rw [started?, heq]) (fun _ => rfl) (fun other => ?_)
      fun entry => .announce entry (dir.join name) number hname
    rw [perform, heq]
    dsimp only
    split
    · exact get?_report ..
    · rfl

theorem changesFor_takeChunk (h : Ascending t.book) (writer : FileWriter) (disk : Disk)
    (chunk : Chunk) (payload : Bytes) :
    (takeChunk writer disk chunk payload).ChangesFor id t := by
  have hstarts : (takeChunk writer disk chunk payload).starts id t = false := rfl
  cases htarget : t.target? chunk.id with
  | none =>
      refine changesFor_rest hstarts ?_ ?_
      · rw [stored?, acceptsBy, htarget]
        rfl
      · rw [perform, takeChunkBy_of_no_target htarget]
  | some target =>
      obtain ⟨other, record⟩ := target
      obtain ⟨hmem, hpeer, hactive⟩ := mem_of_target? htarget
      have hget : t.get? other = some record := Table.get?_of_mem h.distinct hmem
      by_cases hid : id = other
      · subst hid
        rcases takeChunkBy_cases htarget writer disk payload with
          ⟨number, -, hadmits, heq⟩ | ⟨disk', e, -, heq⟩
        · have hstored :
              (takeChunk writer disk chunk payload).stored? id t = some (chunk, payload) := by
            have hok : (t.takeChunkBy writer disk chunk payload).2.2.isOk = true := by
              rw [heq]
              split <;> rfl
            simp [stored?, acceptsBy, htarget, hok]
          have hafter : ((takeChunk writer disk chunk payload).perform t).get? id =
              some (if (record.count payload.length).endsWith chunk then
                  (record.count payload.length).finish
                else record.count payload.length) := by
            rw [perform, heq]
            split
            · rw [get?_report, get?_set_self]
            · exact get?_set_self ..
          rw [ChangesFor, hstarts, hstored, hget, hafter]
          refine .store ?_ hactive hadmits
          intro hsending
          rw [Record.peer?, hsending] at hpeer
          cases hpeer
        · refine changesFor_gone hstarts ?_ ?_
          · rw [stored?, acceptsBy, heq]
            simp [Except.isOk, Except.toBool]
          · rw [perform, heq, get?_report, get?_remove_self]
      · have hmoved := takeChunkBy_moved htarget writer disk payload
        refine changesFor_rest hstarts ?_ (hmoved.get?_of_ne hid)
        simp [stored?, acceptsBy, htarget, Ne.symm hid]

theorem changesFor_sendNext (connected : Bool) (reader : FileReader) (target : TransferId) :
    (sendNext connected reader target).ChangesFor id t := by
  have hstarts : (sendNext connected reader target).starts id t = false := rfl
  rcases t.sendNextFrom_cases connected reader target with hperform |
    ⟨record, pool, hget, hdirection, hactive, hmoved⟩
  · refine changesFor_rest hstarts rfl ?_
    rw [perform, hperform]
  · by_cases hid : id = target
    · subst hid
      cases connected with
      | false =>
          refine changesFor_gone hstarts rfl ?_
          rw [perform, sendNextFrom_of_disconnected hget hdirection hactive, get?_report,
            get?_remove_self]
      | true =>
          have hconnected := sendNextFrom_of_connected hget hdirection hactive reader
          rcases record.sendFrom_cases id reader t.pool with
            ⟨hremaining, heq⟩ | ⟨pool, e, heq⟩ | ⟨pool, payload, frame, hremaining, -, heq⟩
          · rw [ChangesFor, hstarts, hget, perform, hconnected, heq, get?_report, get?_set_self]
            exact .sendNothing hdirection hactive hremaining
          · refine changesFor_gone hstarts rfl ?_
            rw [perform, hconnected, heq, get?_report, get?_remove_self]
          · have hafter : ((sendNext true reader id).perform t).get? id =
                some (if record.remaining = record.nextLength then
                    (record.count record.nextLength).finish
                  else record.count record.nextLength) := by
              rw [perform, hconnected, heq]
              by_cases hlast : record.remaining = record.nextLength
              · simp [Record.nextChunk, hlast]
              · simp [Record.nextChunk, hlast]
            rw [ChangesFor, hstarts, hget, hafter]
            exact .send hdirection hactive hremaining
    · exact changesFor_rest hstarts rfl (hmoved.get?_of_ne hid)

theorem changesFor_failActive (h : Ascending t.book) : failActive.ChangesFor id t := by
  have hafter : (failActive.perform t).get? id = (t.get? id).filter Record.completed := by
    rw [perform, Transfers.get?, book_failActive]
    exact Table.get?_filter h.distinct _ id
  cases hkept : (t.get? id).filter Record.completed with
  | none => exact changesFor_gone rfl rfl (hafter.trans hkept)
  | some record =>
      refine changesFor_rest rfl rfl (hafter.trans ?_)
      rw [hkept, (Option.filter_eq_some_iff.mp hkept).1]

theorem changesFor_remove {op : Operation} (target : TransferId)
    (hstarts : op.starts id t = false) (hstored : op.stored? id t = none)
    (hget : ∀ id, (op.perform t).get? id = (t.remove target).get? id) : op.ChangesFor id t := by
  by_cases hid : id = target
  · subst hid
    exact changesFor_gone hstarts hstored ((hget id).trans (get?_remove_self id t))
  · exact changesFor_rest hstarts hstored ((hget id).trans (get?_remove_of_ne hid t))

theorem changesFor_abort (target : TransferId) : (abort target).ChangesFor id t := by
  cases hget : t.get? target with
  | none =>
      refine changesFor_rest rfl rfl ?_
      rw [perform, Transfers.abort, hget]
  | some record =>
      refine changesFor_remove target rfl rfl fun id => ?_
      rw [perform, Transfers.abort, hget]
      exact get?_report ..

theorem change_perform (h : Ascending t.book) (op : Operation) (id : TransferId) :
    op.ChangesFor id t := by
  cases op with
  | send disk path requested => exact changesFor_send disk path requested
  | receive disk dir request => exact changesFor_receive disk dir request
  | takeChunk writer disk chunk payload => exact changesFor_takeChunk h writer disk chunk payload
  | sendNext connected reader target => exact changesFor_sendNext connected reader target
  | cancel target => exact changesFor_remove target rfl rfl fun _ => rfl
  | abort target => exact changesFor_abort target
  | failActive => exact changesFor_failActive h
  | reportFailedSend path => exact changesFor_rest rfl rfl (get?_report ..)

end Change

end Operation

end Transfer

end SessionEngine

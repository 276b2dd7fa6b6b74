import SessionEngine.Proofs.BlockPool
import SessionEngine.Proofs.Transfer.Book

/-!
# How transfers move and end

A chunk that is received and a chunk that is sent do the same three things to
the book: the transfer goes on, or it ends in place with a report of success,
or it is taken out with a report of failure (`Moved`). `takeChunkBy_cases` and
`sendNextFrom_cases` say when which of them happens, `writeChunk_cases` and
`sendFrom_cases` what becomes of the record. Only the file that the transfer
has open is written to (`disk_takeChunkBy`), and no other is opened
(`book_takeChunkBy`).
-/

namespace SessionEngine

namespace Transfer

namespace Record

@[simp] theorem path_count (length : Nat) (r : Record) : (r.count length).path = r.path := rfl

/-- A chunk that lies in the file is written at its place. It is counted if all
of it could be written; otherwise, and for any other chunk, there is an error. -/
theorem writeChunk_cases (writer : FileWriter) (chunk : Chunk) (payload : Bytes) (disk : Disk)
    (r : Record) :
    (∃ number, r.file = some number ∧ r.admits chunk payload = true ∧
      (writer number (r.offset chunk) payload).failure = none ∧
      r.writeChunk writer chunk payload disk =
        (disk.write number (r.offset chunk) payload, .ok (r.count payload.length,
          if (r.count payload.length).endsWith chunk then .done else .more))) ∨
      (∃ number e, r.file = some number ∧ r.admits chunk payload = true ∧
        (writer number (r.offset chunk) payload).failure = some e ∧
        r.writeChunk writer chunk payload disk =
          (disk.write number (r.offset chunk)
            (payload.take (writer number (r.offset chunk) payload).count),
            .error (.io r.path.text e))) ∨
      ((r.file = none ∨ r.admits chunk payload = false) ∧
        ∃ e, r.writeChunk writer chunk payload disk = (disk, .error e)) := by
  by_cases hadmits : r.admits chunk payload = true
  · cases hfile : r.file with
    | none =>
        refine .inr (.inr ⟨.inl rfl, .io r.path.text .closed, ?_⟩)
        simp only [writeChunk, hadmits, if_true, hfile]
    | some number =>
        cases hfailure : (writer number (r.offset chunk) payload).failure with
        | none =>
            refine .inl ⟨number, rfl, hadmits, hfailure, ?_⟩
            have hcount := (writer number (r.offset chunk) payload).count_eq hfailure
            simp only [writeChunk, hadmits, if_true, hfile, Disk.writeBy, hfailure, hcount,
              List.take_length]
        | some e =>
            refine .inr (.inl ⟨number, e, rfl, hadmits, hfailure, ?_⟩)
            simp only [writeChunk, hadmits, if_true, hfile, Disk.writeBy, hfailure]
  · refine .inr (.inr ⟨.inr ((Bool.not_eq_true _).mp hadmits),
      .chunkOutOfRange chunk.id chunk.index, ?_⟩)
    rw [writeChunk, if_neg hadmits]

/-- A chunk that is sent leaves the record as it was if there is nothing to
send, and counts what was read otherwise. -/
theorem sendFrom_cases (id : TransferId) (reader : FileReader) (pool : BlockPool) (r : Record) :
    (r.remaining = 0 ∧ r.sendFrom id reader pool = (pool, .ok ⟨none, r, .done⟩)) ∨
      (∃ pool' e, r.sendFrom id reader pool = (pool', .error e)) ∨
      ∃ pool' payload frame, r.remaining ≠ 0 ∧ (r.nextChunk id).frame? payload = some frame ∧
        r.sendFrom id reader pool =
          (pool', .ok ⟨some frame, r.count r.nextLength,
            if (r.nextChunk id).isLast then .done else .more⟩) := by
  by_cases hremaining : r.remaining = 0
  · refine .inl ⟨hremaining, ?_⟩
    rw [sendFrom, if_pos hremaining]
  · refine .inr ?_
    rw [sendFrom, if_neg hremaining]
    cases hfile : r.file with
    | none => exact .inl ⟨pool, .io r.path.text .closed, rfl⟩
    | some number =>
        dsimp only
        split
        · exact .inl ⟨_, _, rfl⟩
        · split
          · exact .inl ⟨_, _, rfl⟩
          next frame hframe => exact .inr ⟨_, _, frame, hremaining, hframe, rfl⟩

section Reading

variable {r : Record} {id : TransferId} {reader : FileReader} {number : Nat}
  (hremaining : r.remaining ≠ 0) (hfile : r.file = some number)

include hremaining hfile

/-- A stretch that cannot be read is an error, and its block is given back. -/
theorem sendFrom_of_failure {e : FileError}
    (hfailure : (reader number r.bytesTransferred r.nextLength).failure = some e)
    (pool : BlockPool) :
    r.sendFrom id reader pool =
      (BlockPool.lend r.nextLength (reader number r.bytesTransferred r.nextLength).bytes pool,
        .error (.io r.path.text e)) := by
  rw [sendFrom, if_neg hremaining]
  simp only [hfile, hfailure]
  rfl

/-- What is sent is what was read, whatever the block held before. -/
theorem sendFrom_of_read {frame : Bytes}
    (hfailure : (reader number r.bytesTransferred r.nextLength).failure = none)
    (hframe : (r.nextChunk id).frame? (reader number r.bytesTransferred r.nextLength).bytes =
      some frame) (pool : BlockPool) :
    r.sendFrom id reader pool =
      (BlockPool.lend r.nextLength (reader number r.bytesTransferred r.nextLength).bytes pool,
        .ok ⟨some frame, r.count r.nextLength,
          if (r.nextChunk id).isLast then .done else .more⟩) := by
  have hblock := BlockPool.length_allocate r.nextLength pool
  have hlength := (reader number r.bytesTransferred r.nextLength).length_eq hfailure
  have hcontents :=
    Block.contents_write (b := (BlockPool.allocate r.nextLength pool).1) (hlength.trans hblock.symm)
  rw [sendFrom, if_neg hremaining]
  simp only [hfile, hfailure, hcontents, hframe]
  rfl

end Reading

end Record

namespace Transfers

/-- What moving a chunk does to the transfer with this id. -/
inductive Moved (id : TransferId) (t : Transfers) : Transfers → Prop where
  | more (record : Record) (hactive : record.completed = false) : Moved id t (t.set id record)
  | done (record : Record) (path : Path) :
      Moved id t ((t.set id record.finish).report id true path)
  | failed (path : Path) : Moved id t ((t.remove id).report id false path)

theorem Moved.nextId_eq {id : TransferId} {t t' : Transfers} (h : Moved id t t') :
    t'.nextId = t.nextId := by
  cases h with
  | more record hactive => rfl
  | done record path => rw [nextId_report]; rfl
  | failed path => rw [nextId_report]; rfl

theorem Moved.listening_eq {id : TransferId} {t t' : Transfers} (h : Moved id t t') :
    t'.listening = t.listening := by
  cases h with
  | more record hactive => rfl
  | done record path => rw [listening_report]; rfl
  | failed path => rw [listening_report]; rfl

theorem Moved.pool_eq {id : TransferId} {t t' : Transfers} (h : Moved id t t') :
    t'.pool = t.pool := by
  cases h with
  | more record hactive => rfl
  | done record path => rw [pool_report]; rfl
  | failed path => rw [pool_report]; rfl

/-- Nothing is reported about another transfer. -/
theorem Moved.exists_reports {id : TransferId} {t t' : Transfers} (h : Moved id t t') :
    ∃ told, t'.reports = t.reports ++ told ∧ ∀ report ∈ told, report.id = id := by
  have hreport : ∀ (success : Bool) (path : Path) (u : Transfers), u.reports = t.reports →
      ∃ told, (u.report id success path).reports = t.reports ++ told ∧
        ∀ report ∈ told, report.id = id := by
    intro success path u hu
    cases hlistening : u.listening with
    | false =>
        refine ⟨[], ?_, fun _ hmem => absurd hmem List.not_mem_nil⟩
        rw [report, hlistening, List.append_nil]
        exact hu
    | true =>
        refine ⟨[⟨id, success, path.text⟩], ?_, ?_⟩
        · rw [reports_report hlistening, hu]
        · intro other hmem
          rw [List.mem_singleton.mp hmem]
  cases h with
  | more record hactive =>
      exact ⟨[], (List.append_nil _).symm, fun _ hmem => absurd hmem List.not_mem_nil⟩
  | done record path => exact hreport true path _ rfl
  | failed path => exact hreport false path _ rfl

/-- Only what stands under this id changes. -/
theorem Moved.get?_of_ne {id other : TransferId} {t t' : Transfers} (h : Moved id t t')
    (hne : other ≠ id) : t'.get? other = t.get? other := by
  cases h with
  | more record hactive => exact get?_set_of_ne hne record t
  | done record path =>
      rw [get?_report]
      exact get?_set_of_ne hne record.finish t
  | failed path =>
      rw [get?_report]
      exact get?_remove_of_ne hne t

theorem Moved.distinct {id : TransferId} {t t' : Transfers} (h : Moved id t t')
    (hd : t.book.Distinct) : t'.book.Distinct := by
  cases h with
  | more record hactive => exact hd.insert _ record
  | done record path =>
      rw [book_report]
      exact hd.insert _ record.finish
  | failed path =>
      rw [book_report]
      exact hd.erase id

theorem takeChunkBy_of_no_target {t : Transfers} {chunk : Chunk} (h : t.target? chunk.id = none)
    (writer : FileWriter) (disk : Disk) (payload : Bytes) :
    t.takeChunkBy writer disk chunk payload = (t, disk, .error (.unknownTransfer chunk.id)) := by
  rw [takeChunkBy, h]

theorem takeChunk_of_no_target {t : Transfers} {chunk : Chunk} (h : t.target? chunk.id = none)
    (disk : Disk) (payload : Bytes) :
    t.takeChunk disk chunk payload = (t, disk, .error (.unknownTransfer chunk.id)) :=
  takeChunkBy_of_no_target h .unfailing disk payload

section Storing

variable {t : Transfers} {chunk : Chunk} {id : TransferId} {record : Record}
  (h : t.target? chunk.id = some (id, record))

include h

theorem takeChunkBy_of_ok {writer : FileWriter} {disk disk' : Disk} {payload : Bytes}
    (hwritten : record.writeChunk writer chunk payload disk =
      (disk', .ok (record.count payload.length,
        if (record.count payload.length).endsWith chunk then .done else .more))) :
    t.takeChunkBy writer disk chunk payload =
      if (record.count payload.length).endsWith chunk then
        ((t.set id (record.count payload.length).finish).report id true record.path, disk',
          .ok .done)
      else (t.set id (record.count payload.length), disk', .ok .more) := by
  rw [takeChunkBy, h]
  dsimp only
  by_cases hends : (record.count payload.length).endsWith chunk = true
  · simp only [hwritten, hends, if_true, Record.path_count]
  · simp only [hwritten, hends, Bool.false_eq_true, if_false]

theorem takeChunkBy_of_error {writer : FileWriter} {disk disk' : Disk} {payload : Bytes}
    {e : TransferError}
    (hwritten : record.writeChunk writer chunk payload disk = (disk', .error e)) :
    t.takeChunkBy writer disk chunk payload =
      ((t.remove id).report id false record.path, disk', .error e) := by
  rw [takeChunkBy, h]
  simp only [hwritten]

/-- What a chunk does that belongs to a transfer. If it fails, some of it may
have been written. -/
theorem takeChunkBy_cases (writer : FileWriter) (disk : Disk) (payload : Bytes) :
    (∃ number, record.file = some number ∧ record.admits chunk payload = true ∧
      t.takeChunkBy writer disk chunk payload =
        if (record.count payload.length).endsWith chunk then
          ((t.set id (record.count payload.length).finish).report id true record.path,
            disk.write number (record.offset chunk) payload, .ok .done)
        else
          (t.set id (record.count payload.length),
            disk.write number (record.offset chunk) payload, .ok .more)) ∨
      ∃ disk' e, (disk' = disk ∨ ∃ number taken, record.file = some number ∧
          disk' = disk.write number (record.offset chunk) (payload.take taken)) ∧
        t.takeChunkBy writer disk chunk payload =
          ((t.remove id).report id false record.path, disk', .error e) := by
  rcases record.writeChunk_cases writer chunk payload disk with
    ⟨number, hfile, hadmits, -, hwritten⟩ | ⟨number, e, hfile, -, -, hwritten⟩ | ⟨-, e, hwritten⟩
  · exact .inl ⟨number, hfile, hadmits, takeChunkBy_of_ok h hwritten⟩
  · exact .inr ⟨_, _, .inr ⟨number, _, hfile, rfl⟩, takeChunkBy_of_error h hwritten⟩
  · exact .inr ⟨_, _, .inl rfl, takeChunkBy_of_error h hwritten⟩

/-- On a disk that takes everything, a chunk fails only if it does not lie in
the file or comes when the file is closed. -/
theorem takeChunk_cases (disk : Disk) (payload : Bytes) :
    (∃ number, record.file = some number ∧ record.admits chunk payload = true ∧
      t.takeChunk disk chunk payload =
        if (record.count payload.length).endsWith chunk then
          ((t.set id (record.count payload.length).finish).report id true record.path,
            disk.write number (record.offset chunk) payload, .ok .done)
        else
          (t.set id (record.count payload.length),
            disk.write number (record.offset chunk) payload, .ok .more)) ∨
      ((record.file = none ∨ record.admits chunk payload = false) ∧
        ∃ e, t.takeChunk disk chunk payload =
          ((t.remove id).report id false record.path, disk, .error e)) := by
  rcases record.writeChunk_cases .unfailing chunk payload disk with
    ⟨number, hfile, hadmits, -, hwritten⟩ | ⟨_, _, -, -, hfailure, -⟩ | ⟨hwhy, e, hwritten⟩
  · exact .inl ⟨number, hfile, hadmits, takeChunkBy_of_ok h hwritten⟩
  · cases hfailure
  · exact .inr ⟨hwhy, e, takeChunkBy_of_error h hwritten⟩

theorem takeChunkBy_moved (writer : FileWriter) (disk : Disk) (payload : Bytes) :
    Moved id t (t.takeChunkBy writer disk chunk payload).1 := by
  rcases takeChunkBy_cases h writer disk payload with ⟨number, -, -, heq⟩ | ⟨disk', e, -, heq⟩
  · rw [heq]
    split
    · exact .done _ _
    · exact .more _ (mem_of_target? h).2.2
  · rw [heq]
    exact .failed _

/-- A chunk is written to the file that its transfer has open, or to none. -/
theorem disk_takeChunkBy (writer : FileWriter) (disk : Disk) (payload : Bytes) :
    (t.takeChunkBy writer disk chunk payload).2.1 = disk ∨
      ∃ number bytes, record.file = some number ∧
        (t.takeChunkBy writer disk chunk payload).2.1 =
          disk.write number (record.offset chunk) bytes := by
  rcases takeChunkBy_cases h writer disk payload with
    ⟨number, hfile, -, heq⟩ | ⟨disk', e, rfl | ⟨number, taken, hfile, rfl⟩, heq⟩
  · refine .inr ⟨number, payload, hfile, ?_⟩
    rw [heq]
    split <;> rfl
  · exact .inl (by rw [heq])
  · exact .inr ⟨number, payload.take taken, hfile, by rw [heq]⟩

/-- No file is opened for a chunk. -/
theorem book_takeChunkBy {writer : FileWriter} {disk : Disk} {payload : Bytes}
    {entry : TransferId × Record}
    (hentry : entry ∈ (t.takeChunkBy writer disk chunk payload).1.book) :
    entry ∈ t.book ∨ ∀ number, entry.2.file = some number → record.file = some number := by
  rcases takeChunkBy_cases h writer disk payload with ⟨number, -, -, heq⟩ | ⟨disk', e, -, heq⟩
  · rw [heq] at hentry
    split at hentry
    · rw [book_report] at hentry
      rcases Table.mem_insert hentry with rfl | hold
      · exact .inr nofun
      · exact .inl hold
    · rcases Table.mem_insert hentry with rfl | hold
      · exact .inr fun _ hfile => hfile
      · exact .inl hold
  · rw [heq, book_report] at hentry
    exact .inl (List.mem_filter.mp hentry).1

end Storing

section Sending

variable {t : Transfers} {id : TransferId} {record : Record}

theorem sendNextFrom_of_none (hget : t.get? id = none) (connected : Bool) (reader : FileReader) :
    t.sendNextFrom connected reader id = (t, none, .error (.unknownTransfer id)) := by
  rw [sendNextFrom, hget]

theorem sendNextFrom_of_receiving (hget : t.get? id = some record)
    (hdirection : record.direction ≠ .sending) (connected : Bool) (reader : FileReader) :
    t.sendNextFrom connected reader id = (t, none, .error (.wrongDirection id)) := by
  cases hpeer : record.direction with
  | sending => exact absurd hpeer hdirection
  | receiving peer => simp only [sendNextFrom, hget, hpeer]

section Outgoing

variable (hget : t.get? id = some record) (hdirection : record.direction = .sending)

include hget hdirection

theorem sendNextFrom_of_completed (hcompleted : record.completed = true) (connected : Bool)
    (reader : FileReader) : t.sendNextFrom connected reader id = (t, none, .ok .done) := by
  simp only [sendNextFrom, hget, hdirection, hcompleted, if_true]

theorem sendNextFrom_of_disconnected (hactive : record.completed = false) (reader : FileReader) :
    t.sendNextFrom false reader id =
      ((t.remove id).report id false record.path, none, .error (.disconnected id)) := by
  simp only [sendNextFrom, hget, hdirection, hactive, Bool.false_eq_true, if_false]

/-- While there is a connection, sending a chunk does what becomes of the
record. -/
theorem sendNextFrom_of_connected (hactive : record.completed = false) (reader : FileReader) :
    t.sendNextFrom true reader id =
      match record.sendFrom id reader t.pool with
      | (pool, .ok ⟨frame, moved, .more⟩) => ({ t with pool }.set id moved, frame, .ok .more)
      | (pool, .ok ⟨frame, moved, .done⟩) =>
          (({ t with pool }.set id moved.finish).report id true moved.path, frame, .ok .done)
      | (pool, .error e) =>
          (({ t with pool }.remove id).report id false record.path, none, .error e) := by
  simp only [sendNextFrom, hget, hdirection, hactive, Bool.false_eq_true, if_false, if_true]
  rcases record.sendFrom id reader t.pool with ⟨pool, e | ⟨frame, moved, _ | _⟩⟩ <;> rfl

end Outgoing

/-- Sending a chunk either changes nothing but the pool, or moves a transfer
that is sent and not complete. -/
theorem sendNextFrom_cases (connected : Bool) (reader : FileReader) (id : TransferId)
    (t : Transfers) :
    (t.sendNextFrom connected reader id).1 = t ∨
      ∃ record pool, t.get? id = some record ∧ record.direction = .sending ∧
        record.completed = false ∧
        Moved id { t with pool } (t.sendNextFrom connected reader id).1 := by
  cases hget : t.get? id with
  | none => exact Or.inl (by rw [sendNextFrom_of_none hget])
  | some record =>
      by_cases hdirection : record.direction = .sending
      · cases hcompleted : record.completed with
        | true =>
            exact Or.inl (by rw [sendNextFrom_of_completed hget hdirection hcompleted])
        | false =>
            suffices hmoved : ∃ pool, Moved id { t with pool }
                (t.sendNextFrom connected reader id).1 by
              obtain ⟨pool, hmoved⟩ := hmoved
              exact Or.inr ⟨record, pool, rfl, hdirection, hcompleted, hmoved⟩
            cases connected with
            | false =>
                rw [sendNextFrom_of_disconnected hget hdirection hcompleted]
                exact ⟨t.pool, .failed _⟩
            | true =>
                rw [sendNextFrom_of_connected hget hdirection hcompleted]
                rcases record.sendFrom_cases id reader t.pool with
                  ⟨-, heq⟩ | ⟨pool, e, heq⟩ | ⟨pool, payload, frame, -, -, heq⟩
                · rw [heq]
                  exact ⟨t.pool, .done _ _⟩
                · rw [heq]
                  exact ⟨pool, .failed _⟩
                · rw [heq]
                  refine ⟨pool, ?_⟩
                  by_cases hlast : (record.nextChunk id).isLast = true
                  · simp only [hlast, if_true]
                    exact .done _ _
                  · simp only [hlast, Bool.false_eq_true, if_false]
                    exact .more _ hcompleted
      · exact Or.inl (by rw [sendNextFrom_of_receiving hget hdirection])

end Sending

end Transfers

end Transfer

end SessionEngine

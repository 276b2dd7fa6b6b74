import SessionEngine.Proofs.Files.Disk
import SessionEngine.Proofs.Transfer.Message
import SessionEngine.Proofs.Transfer.Parcel

/-!
# A file on its way

What a file looks like to the two sides while it is sent: the record of the
sender after `q` chunks (`outgoing`), the record of the receiver after `q`
chunks (`Parcel.incoming`), and the frame that takes the one from `q` to
`q + 1` on either side (`frame`). `sendNextFrom_of_read` is the step of the
sender and `Parcel.takeChunk_incoming` that of the receiver; the last chunk
finishes the transfer in place on both sides.
-/

namespace SessionEngine

namespace Transfer

/-- A file on its way, whose chunks fit into frames. -/
structure Shipment extends Parcel where
  chunkSize_le : chunkSize ≤ Chunk.maxPayload

namespace Shipment

variable (s : Shipment)

def frame (q : Nat) : Bytes := ((s.chunk q).frame? (s.slice q)).getD []

def outgoing (path : Path) (number q : Nat) : Record :=
  { Record.ofSource path number s.source.length s.chunkSize s.chunksTotal.toNat with
    bytesTransferred := s.moved q
    chunksCompleted := q }

def reading (reader : FileReader) (number q : Nat) : Reading (s.slice q).length :=
  reader number (s.moved q) (s.slice q).length

section Before

variable {s : Shipment} {q : Nat}

/-! ## Frames -/

theorem frame?_chunk : (s.chunk q).frame? (s.slice q) = some (s.frame q) := by
  obtain ⟨built, hbuilt⟩ := Chunk.exists_frame? (s.chunk q)
    (Nat.le_trans (s.length_slice_le q) s.chunkSize_le)
  rw [frame, hbuilt, Option.getD_some]

theorem build?_frame :
    Frame.build? Kind.chunk.id ((s.chunk q).body (s.slice q)) = some (s.frame q) :=
  (Chunk.build?_of_frame? frame?_chunk).2

/-! ## Sending -/

variable {path : Path} {number : Nat}

theorem remaining_outgoing : (s.outgoing path number q).remaining = s.source.length - s.moved q :=
  rfl

theorem nextLength_outgoing (h : q < s.chunksTotal.toNat) :
    (s.outgoing path number q).nextLength = (s.slice q).length := by
  have hle := s.chunkSize_le
  rw [Record.nextLength, remaining_outgoing, s.length_slice, Cutting.moved_of_lt h]
  show min (min (s.source.length - q * s.chunkSize) s.chunkSize) Chunk.maxPayload = _
  omega

/-- What remains is the last chunk. -/
theorem remaining_eq_nextLength_iff (h : q < s.chunksTotal.toNat) :
    (s.outgoing path number q).remaining = (s.outgoing path number q).nextLength ↔
      q + 1 = s.chunksTotal.toNat := by
  have hend := Cutting.moved_succ_eq_length_iff h
  have hsucc := Cutting.moved_succ h
  have hlt := Cutting.moved_lt h
  rw [nextLength_outgoing h, remaining_outgoing, ← hend]
  omega

theorem nextChunk_outgoing (h : q < s.chunksTotal.toNat) :
    (s.outgoing path number q).nextChunk s.id = s.chunk q := by
  have hlast : decide ((s.outgoing path number q).remaining =
      (s.outgoing path number q).nextLength) = decide (q + 1 = s.chunksTotal.toNat) :=
    decide_eq_decide.mpr (remaining_eq_nextLength_iff h)
  rw [Record.nextChunk, hlast, nextLength_outgoing h]
  rfl

theorem count_outgoing (h : q < s.chunksTotal.toNat) :
    (s.outgoing path number q).count (s.slice q).length = s.outgoing path number (q + 1) := by
  rw [Record.count, outgoing, outgoing, ← Cutting.moved_succ h]

theorem read_eq_slice {disk : Disk} (h : q < s.chunksTotal.toNat)
    (hsource : (disk.content number).toBytes = s.source) :
    disk.read number (s.moved q) (s.slice q).length = s.slice q := by
  rw [Disk.read, Content.read_eq, hsource, Cutting.moved_of_lt h, s.length_slice, Cutting.slice,
    ← List.length_drop, ← List.take_eq_take_min]

theorem remaining_outgoing_ne_zero (h : q < s.chunksTotal.toNat) :
    (s.outgoing path number q).remaining ≠ 0 := by
  have hlt := Cutting.moved_lt h
  rw [remaining_outgoing]
  omega

/-- The sender reads as many bytes as the next chunk has, and counts them. -/
theorem sendFrom_of_read {reader : FileReader} {frame : Bytes} (h : q < s.chunksTotal.toNat)
    (hfailure : (s.reading reader number q).failure = none)
    (hframe : (s.chunk q).frame? (s.reading reader number q).bytes = some frame)
    (pool : BlockPool) :
    ∃ pool', (s.outgoing path number q).sendFrom s.id reader pool =
      (pool', .ok ⟨some frame, s.outgoing path number (q + 1),
        if q + 1 = s.chunksTotal.toNat then .done else .more⟩) := by
  have hchunk : (s.outgoing path number q).nextChunk s.id = s.chunk q := nextChunk_outgoing h
  have hnext : (s.outgoing path number q).nextLength = (s.slice q).length :=
    nextLength_outgoing h
  have hlast : (s.chunk q).isLast = decide (q + 1 = s.chunksTotal.toNat) := rfl
  rw [reading, ← hnext] at hfailure hframe
  rw [← hchunk] at hframe
  have hsent := Record.sendFrom_of_read (remaining_outgoing_ne_zero h) rfl hfailure hframe pool
  rw [hchunk, hlast, hnext, count_outgoing h] at hsent
  simp only [decide_eq_true_eq] at hsent
  exact ⟨_, hsent⟩

theorem sendNextFrom_of_read {t : Transfers} {reader : FileReader} {frame : Bytes}
    (h : q < s.chunksTotal.toNat) (hget : t.get? s.id = some (s.outgoing path number q))
    (hfailure : (s.reading reader number q).failure = none)
    (hframe : (s.chunk q).frame? (s.reading reader number q).bytes = some frame) :
    ∃ pool, t.sendNextFrom true reader s.id =
      if q + 1 = s.chunksTotal.toNat then
        (({ t with pool }.set s.id (s.outgoing path number (q + 1)).finish).report s.id true path,
          some frame, .ok .done)
      else
        ({ t with pool }.set s.id (s.outgoing path number (q + 1)), some frame, .ok .more) := by
  obtain ⟨pool, hsent⟩ : ∃ pool, (s.outgoing path number q).sendFrom s.id reader t.pool = _ :=
    sendFrom_of_read h hfailure hframe t.pool
  refine ⟨pool, ?_⟩
  rw [Transfers.sendNextFrom_of_connected hget rfl rfl, hsent]
  by_cases hlast : q + 1 = s.chunksTotal.toNat
  · simp only [if_pos hlast]
    rfl
  · simp only [if_neg hlast]

/-- The file is as it was announced, where the next chunk lies. -/
theorem sendNextFrom_outgoing {t : Transfers} {disk : Disk} (h : q < s.chunksTotal.toNat)
    (hget : t.get? s.id = some (s.outgoing path number q))
    (hsource : (disk.content number).toBytes = s.source) :
    ∃ pool, t.sendNextFrom true disk.reader s.id =
      if q + 1 = s.chunksTotal.toNat then
        (({ t with pool }.set s.id (s.outgoing path number (q + 1)).finish).report s.id true path,
          some (s.frame q), .ok .done)
      else
        ({ t with pool }.set s.id (s.outgoing path number (q + 1)), some (s.frame q),
          .ok .more) := by
  have hbytes : (s.reading disk.reader number q).bytes = s.slice q := read_eq_slice h hsource
  refine sendNextFrom_of_read h hget (Disk.failure_reader ?_) ?_
  · exact congrArg List.length hbytes
  · rw [hbytes]
    exact frame?_chunk

/-- The stretch of the next chunk cannot be read. -/
theorem sendNextFrom_of_failure {t : Transfers} {reader : FileReader} {e : FileError}
    (h : q < s.chunksTotal.toNat) (hget : t.get? s.id = some (s.outgoing path number q))
    (hfailure : (s.reading reader number q).failure = some e) :
    ∃ pool, t.sendNextFrom true reader s.id =
      (({ t with pool }.remove s.id).report s.id false path, none, .error (.io path.text e)) := by
  have hnext : (s.outgoing path number q).nextLength = (s.slice q).length :=
    nextLength_outgoing h
  rw [reading, ← hnext] at hfailure
  have hfailed : (s.outgoing path number q).sendFrom s.id reader t.pool = _ :=
    Record.sendFrom_of_failure (remaining_outgoing_ne_zero h) rfl hfailure t.pool
  have hnextFrom := Transfers.sendNextFrom_of_connected hget rfl rfl reader
  rw [hfailed] at hnextFrom
  exact ⟨_, hnextFrom⟩

/-- The only turn of the sender of an empty file. -/
theorem sendNextFrom_of_empty {t : Transfers} (reader : FileReader)
    (hempty : s.chunksTotal.toNat = 0) (hget : t.get? s.id = some (s.outgoing path number 0)) :
    t.sendNextFrom true reader s.id =
      ((t.set s.id (s.outgoing path number 0).finish).report s.id true path, none, .ok .done) := by
  have hremaining : (s.outgoing path number 0).remaining = 0 := by
    rw [remaining_outgoing, s.chunksTotal_eq_zero_iff.mp hempty, Nat.zero_sub]
  have hsent : (s.outgoing path number 0).sendFrom s.id reader t.pool =
      (t.pool, .ok ⟨none, s.outgoing path number 0, .done⟩) := by
    rw [Record.sendFrom, if_pos hremaining]
  rw [Transfers.sendNextFrom_of_connected hget rfl rfl, hsent]
  rfl

end Before

end Shipment

end Transfer

end SessionEngine

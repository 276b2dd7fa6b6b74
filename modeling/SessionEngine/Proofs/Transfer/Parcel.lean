import SessionEngine.Proofs.Transfer.Cutting
import SessionEngine.Proofs.Transfer.Moving

/-!
# A file on its way in

What a file looks like to the side that receives it: its announcement
(`request`), the head of each of its chunks (`chunk`) and its record after `q`
chunks (`incoming`). The next chunk takes the record from `q` to `q + 1`, and
the last one finishes the transfer in place (`takeChunk_incoming`).
-/

namespace SessionEngine

namespace Transfer

/-- A file that is cut into chunks, under the id that its sender gave out. -/
structure Parcel extends Cutting where
  id : TransferId

namespace Parcel

/-- A file that is sent in one chunk. -/
def single (id : TransferId) (source : Bytes) (hpos : 0 < source.length)
    (hlt : source.length < UInt32.size) : Parcel where
  id := id
  source := source
  chunkSize := source.length
  chunksTotal := 1
  chunkSize_pos := hpos
  chunkSize_lt := hlt
  le_mul := Nat.le_of_eq (Nat.one_mul _).symm
  mul_lt := by
    intro q hq
    rw [Nat.lt_one_iff.mp hq, Nat.zero_mul]
    exact hpos

variable (p : Parcel)

/-- The announcement, with the name that arrives. -/
def request (name : String) : Request :=
  Transfers.requestOf name p.source.length p.chunkSize p.chunksTotal p.id

def chunk (q : Nat) : Chunk where
  id := p.id
  index := UInt32.ofNat q
  size := UInt32.ofNat (p.slice q).length
  isLast := q + 1 = p.chunksTotal.toNat

def incoming (path : Path) (number q : Nat) : Record where
  direction := .receiving p.id
  path := path
  file := some number
  fileSize := p.source.length
  bytesTransferred := p.moved q
  chunkSize := p.chunkSize
  chunksTotal := p.chunksTotal.toNat
  chunksCompleted := q
  completed := false

/-! ## Numbers that fit -/

theorem toNat_fileSize (name : String) : (p.request name).fileSize.toNat = p.source.length :=
  UInt64.toNat_ofNat_of_lt' p.length_source_lt

theorem toNat_chunkSize (name : String) : (p.request name).chunkSize.toNat = p.chunkSize :=
  UInt32.toNat_ofNat_of_lt' p.chunkSize_lt

theorem toNat_size (q : Nat) : (p.chunk q).size.toNat = (p.slice q).length :=
  UInt32.toNat_ofNat_of_lt' (Nat.lt_of_le_of_lt (p.length_slice_le q) p.chunkSize_lt)

/-! ## The announcement -/

theorem fileSize_request_eq_zero_iff (name : String) :
    (p.request name).fileSize = 0 ↔ p.chunksTotal.toNat = 0 := by
  rw [p.chunksTotal_eq_zero_iff, ← p.toNat_fileSize name, ← UInt64.toNat_inj]
  rfl

section Announcement

variable {p : Parcel} {path : Path} {number : Nat}

/-- The announced file is entered as its first chunk finds it. -/
theorem ofRequest_request (name : String) :
    Record.ofRequest path number (p.request name) =
      if p.chunksTotal.toNat = 0 then (p.incoming path number 0).finish
      else p.incoming path number 0 := by
  have hempty := p.fileSize_request_eq_zero_iff name
  rw [Record.ofRequest, p.toNat_fileSize, p.toNat_chunkSize]
  by_cases hzero : p.chunksTotal.toNat = 0
  · rw [if_pos hzero, decide_eq_true (hempty.mpr hzero), if_pos rfl, incoming, p.moved_zero]
    rfl
  · rw [if_neg hzero, decide_eq_false (fun h => hzero (hempty.mp h)), incoming, p.moved_zero]
    rfl

theorem acceptedName_request {name base : String} (hname : FileName.sanitize name = .ok base) :
    Transfers.acceptedName (p.request name) = .ok base := by
  refine Transfers.acceptedName_eq hname ?_ ?_
  · intro hzero
    have hpos := p.chunkSize_pos
    rw [← p.toNat_chunkSize name, hzero] at hpos
    exact absurd hpos (by decide)
  · rw [p.toNat_fileSize, p.toNat_chunkSize]
    exact p.chunkCount_eq

end Announcement

/-! ## The chunks -/

section Chunks

variable {p : Parcel} {q number : Nat} {path : Path}

theorem toNat_index (h : q < p.chunksTotal.toNat) : (p.chunk q).index.toNat = q :=
  UInt32.toNat_ofNat_of_lt' (Nat.lt_trans h p.chunksTotal.toNat_lt)

theorem offset_incoming (h : q < p.chunksTotal.toNat) :
    (p.incoming path number q).offset (p.chunk q) = q * p.chunkSize := by
  rw [Record.offset, toNat_index h]
  rfl

theorem admits_incoming (h : q < p.chunksTotal.toNat) :
    (p.incoming path number q).admits (p.chunk q) (p.slice q) = true := by
  have hsucc := Cutting.moved_succ h
  have hle : p.moved (q + 1) ≤ p.source.length := Nat.min_le_right _ _
  rw [Cutting.moved_of_lt h] at hsucc
  have hend : q * p.chunkSize + (p.slice q).length ≤ p.source.length := by omega
  simp only [Record.admits, offset_incoming h, toNat_index h, p.toNat_size, Bool.and_eq_true,
    decide_eq_true_eq]
  exact ⟨⟨trivial, h⟩, hend⟩

theorem count_incoming (h : q < p.chunksTotal.toNat) :
    (p.incoming path number q).count (p.slice q).length = p.incoming path number (q + 1) := by
  rw [Record.count, incoming, incoming, ← Cutting.moved_succ h]

/-- The three reasons to end are one if every chunk comes once and in full. -/
theorem endsWith_incoming (h : q < p.chunksTotal.toNat) :
    (p.incoming path number (q + 1)).endsWith (p.chunk q) =
      decide (q + 1 = p.chunksTotal.toNat) := by
  have hend := Cutting.moved_succ_eq_length_iff h
  have hle : p.moved (q + 1) ≤ p.source.length := Nat.min_le_right _ _
  have hlast : (p.chunk q).isLast = decide (q + 1 = p.chunksTotal.toNat) := rfl
  have hcount : decide (p.chunksTotal.toNat ≤ q + 1) = decide (q + 1 = p.chunksTotal.toNat) := by
    rw [decide_eq_decide]
    omega
  have hbytes : decide (p.source.length ≤ p.moved (q + 1)) =
      decide (q + 1 = p.chunksTotal.toNat) := by
    rw [decide_eq_decide, ← hend]
    omega
  show ((p.chunk q).isLast || decide (p.chunksTotal.toNat ≤ q + 1) ||
    decide (p.source.length ≤ p.moved (q + 1))) = _
  rw [hlast, hcount, hbytes, Bool.or_self, Bool.or_self]

theorem takeChunk_incoming {t : Transfers} {id : TransferId} (h : q < p.chunksTotal.toNat)
    (htarget : t.target? p.id = some (id, p.incoming path number q)) (disk : Disk) :
    t.takeChunk disk (p.chunk q) (p.slice q) =
      if q + 1 = p.chunksTotal.toNat then
        ((t.set id (p.incoming path number (q + 1)).finish).report id true path,
          disk.write number (q * p.chunkSize) (p.slice q), .ok .done)
      else
        (t.set id (p.incoming path number (q + 1)),
          disk.write number (q * p.chunkSize) (p.slice q), .ok .more) := by
  have htarget : t.target? (p.chunk q).id = some (id, p.incoming path number q) := htarget
  rcases Transfers.takeChunk_cases htarget disk (p.slice q) with
    ⟨other, hfile, -, heq⟩ | ⟨hwhy, -⟩
  · obtain rfl : number = other := Option.some.inj hfile
    rw [heq, count_incoming h, endsWith_incoming h, offset_incoming h]
    simp only [decide_eq_true_eq]
    rfl
  · rcases hwhy with hclosed | hrefused
    · cases hclosed
    · rw [admits_incoming h] at hrefused
      cases hrefused

end Chunks

end Parcel

end Transfer

end SessionEngine

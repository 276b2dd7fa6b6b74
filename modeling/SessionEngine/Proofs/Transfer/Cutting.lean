import SessionEngine.Proofs.Transfer.Start

/-!
# Files cut into chunks

A file with the size and the number of its chunks, which fit together: the
chunks reach to the end of the file, and none of them lies behind it. All that
either side does with the chunk after the first `q` is arithmetic on these
three (`moved`, `slice`), and what the receiver has written by then is the
beginning of the file with zero bytes behind it (`written`).
-/

namespace SessionEngine

namespace Transfer

/-- A file that is cut into chunks. -/
structure Cutting where
  source : Bytes
  chunkSize : Nat
  chunksTotal : UInt32
  chunkSize_pos : 0 < chunkSize
  chunkSize_lt : chunkSize < UInt32.size
  le_mul : source.length ≤ chunksTotal.toNat * chunkSize
  mul_lt : ∀ q < chunksTotal.toNat, q * chunkSize < source.length

namespace Cutting

theorem effectiveChunkSize_pos (requested : UInt32) :
    0 < Transfers.effectiveChunkSize requested := by
  rw [Transfers.effectiveChunkSize]
  split
  · decide
  next hne =>
      have hpos : 0 < requested.toNat :=
        Nat.pos_of_ne_zero fun hzero => hne (UInt32.toNat_inj.mp hzero)
      have hmax : 0 < Chunk.maxPayload := by decide
      omega

theorem effectiveChunkSize_le (requested : UInt32) :
    Transfers.effectiveChunkSize requested ≤ Chunk.maxPayload := by
  rw [Transfers.effectiveChunkSize]
  split
  · decide
  · exact Nat.min_le_right _ _

def ofCount (source : Bytes) {chunkSize : Nat} (hpos : 0 < chunkSize)
    (hlt : chunkSize < UInt32.size)
    {chunksTotal : UInt32} (h : Transfers.chunkCount source.length chunkSize = .ok chunksTotal) :
    Cutting where
  source := source
  chunkSize := chunkSize
  chunksTotal := chunksTotal
  chunkSize_pos := hpos
  chunkSize_lt := hlt
  le_mul := Transfers.le_mul_of_chunkCount hpos h
  mul_lt := by
    intro q hq
    rw [Transfers.toNat_of_chunkCount h, Nat.lt_iff_add_one_le, Nat.le_div_iff_mul_le hpos,
      Nat.succ_mul] at hq
    omega

def ofChunkCount (source : Bytes) (requested : UInt32) (chunksTotal : UInt32)
    (h : Transfers.chunkCount source.length (Transfers.effectiveChunkSize requested) =
      .ok chunksTotal) : Cutting :=
  ofCount source (effectiveChunkSize_pos requested)
    (Nat.lt_of_le_of_lt (effectiveChunkSize_le requested) (by decide)) h

variable (c : Cutting)

/-- The chunk with this number. -/
def slice (q : Nat) : Bytes := (c.source.drop (q * c.chunkSize)).take c.chunkSize

def moved (q : Nat) : Nat := min (q * c.chunkSize) c.source.length

/-- What a file is like that was all zero and got the chunks before this one. -/
def written (q : Nat) : Bytes :=
  c.source.take (q * c.chunkSize) ++ List.replicate (c.source.length - q * c.chunkSize) 0

/-! ## Lengths -/

theorem length_slice (q : Nat) :
    (c.slice q).length = min c.chunkSize (c.source.length - q * c.chunkSize) := by
  rw [slice, List.length_take, List.length_drop]

theorem length_slice_le (q : Nat) : (c.slice q).length ≤ c.chunkSize := by
  rw [length_slice]
  exact Nat.min_le_left _ _

/-- Both factors are below the greatest number that a field of the
announcement can hold. -/
theorem length_source_lt : c.source.length < UInt64.size := by
  have hmul := Nat.mul_lt_mul'' c.chunksTotal.toNat_lt c.chunkSize_lt
  exact Nat.lt_of_le_of_lt c.le_mul hmul

theorem moved_zero : c.moved 0 = 0 := by
  rw [moved, Nat.zero_mul, Nat.zero_min]

theorem moved_total : c.moved c.chunksTotal.toNat = c.source.length :=
  Nat.min_eq_right c.le_mul

theorem chunksTotal_eq_zero_iff : c.chunksTotal.toNat = 0 ↔ c.source.length = 0 := by
  constructor
  · intro hzero
    have hle := c.le_mul
    rw [hzero, Nat.zero_mul] at hle
    omega
  · intro hempty
    rcases Nat.eq_zero_or_pos c.chunksTotal.toNat with hzero | hpos
    · exact hzero
    · have hlt := c.mul_lt 0 hpos
      omega

/-- The chunks are as many as the receiver counts. -/
theorem chunkCount_eq : Transfers.chunkCount c.source.length c.chunkSize = .ok c.chunksTotal := by
  have hle := c.le_mul
  have hpos := c.chunkSize_pos
  have htotal : (c.source.length + (c.chunkSize - 1)) / c.chunkSize = c.chunksTotal.toNat := by
    refine Nat.div_eq_of_lt_le ?_ ?_
    · rcases Nat.eq_zero_or_pos c.chunksTotal.toNat with hzero | hsome
      · rw [hzero, Nat.zero_mul]
        exact Nat.zero_le _
      · have hlast := c.mul_lt (c.chunksTotal.toNat - 1) (Nat.sub_lt hsome Nat.zero_lt_one)
        rw [Nat.sub_mul, Nat.one_mul] at hlast
        omega
    · rw [Nat.succ_mul]
      omega
  simp only [Transfers.chunkCount, htotal]
  rw [if_pos c.chunksTotal.toNat_lt, UInt32.ofNat_toNat]

section Before

variable {c : Cutting} {q : Nat}

theorem moved_of_lt (h : q < c.chunksTotal.toNat) : c.moved q = q * c.chunkSize :=
  Nat.min_eq_left (Nat.le_of_lt (c.mul_lt q h))

theorem moved_lt (h : q < c.chunksTotal.toNat) : c.moved q < c.source.length := by
  rw [moved_of_lt h]
  exact c.mul_lt q h

theorem moved_succ (h : q < c.chunksTotal.toNat) :
    c.moved q + (c.slice q).length = c.moved (q + 1) := by
  have hlt := c.mul_lt q h
  rw [moved_of_lt h, length_slice, moved, Nat.succ_mul]
  omega

/-- The chunks reach the end of the file with the last one, and not before. -/
theorem moved_succ_eq_length_iff (h : q < c.chunksTotal.toNat) :
    c.moved (q + 1) = c.source.length ↔ q + 1 = c.chunksTotal.toNat := by
  constructor
  · intro hend
    rcases Nat.lt_or_eq_of_le (Nat.succ_le_of_lt h) with hlt | heq
    · exact absurd hend (Nat.ne_of_lt (moved_lt hlt))
    · exact heq
  · intro hlast
    rw [hlast]
    exact c.moved_total

/-! ## What is written -/

theorem written_zero : c.written 0 = List.replicate c.source.length 0 := by
  rw [written, Nat.zero_mul, List.take_zero, List.nil_append, Nat.sub_zero]

theorem written_total : c.written c.chunksTotal.toNat = c.source := by
  rw [written, List.take_of_length_le c.le_mul, Nat.sub_eq_zero_of_le c.le_mul]
  exact List.append_nil _

theorem length_written : (c.written q).length = c.source.length := by
  rw [written, List.length_append, List.length_take, List.length_replicate]
  omega

/-- Each chunk adds to the beginning of the file. -/
theorem overwrite_written (h : q < c.chunksTotal.toNat) :
    Bytes.overwrite (q * c.chunkSize) (c.slice q) (c.written q) = c.written (q + 1) := by
  have hlt := c.mul_lt q h
  have hbefore : (c.source.take (q * c.chunkSize)).length = q * c.chunkSize := by
    rw [List.length_take]
    omega
  have htake : (c.written q).take (q * c.chunkSize) = c.source.take (q * c.chunkSize) := by
    rw [written]
    exact List.take_left' hbefore
  have hdrop : (c.written q).drop (q * c.chunkSize + (c.slice q).length) =
      List.replicate (c.source.length - (q + 1) * c.chunkSize) 0 := by
    rw [written, List.drop_append, List.drop_of_length_le (by omega), List.nil_append, hbefore,
      List.drop_replicate, length_slice, Nat.succ_mul]
    congr 1
    omega
  have hnext : c.source.take (q * c.chunkSize) ++ c.slice q =
      c.source.take ((q + 1) * c.chunkSize) := by
    rw [slice, Nat.succ_mul, List.take_add]
  rw [Bytes.overwrite, htake, hdrop, hnext, written]

/-- A file gets its next chunk. -/
theorem content_write_slice {disk : Disk} {number : Nat} (h : q < c.chunksTotal.toNat)
    (hnumber : number < disk.contents.length)
    (hcontent : (disk.content number).toBytes = c.written q) :
    ((disk.write number (q * c.chunkSize) (c.slice q)).content number).toBytes =
      c.written (q + 1) := by
  have hstart : q * c.chunkSize ≤ (disk.content number).length := by
    rw [← Content.length_toBytes, hcontent, length_written]
    exact Nat.le_of_lt (c.mul_lt q h)
  rw [Disk.content_write hnumber, Content.toBytes_write hstart, hcontent, overwrite_written h]

end Before

end Cutting

end Transfer

end SessionEngine

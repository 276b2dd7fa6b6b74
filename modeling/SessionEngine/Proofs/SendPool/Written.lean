import SessionEngine.Proofs.SendPool.Chunks

/-!
# What a finished buffer holds

A region is cleared when it is opened, so a buffer that is cut off it holds
what was written into it and zero bytes behind, and nothing of what was in the
chunk before (`read_of_put?`). A frame fills its region and is read as it was
built, from whatever chunk (`read_of_putFrame?`).
-/

namespace SessionEngine

namespace SendChunk

/-- A region after it was cleared and written to. -/
theorem drop_write_clear {c : SendChunk} (h : c.WellFormed) {size : Nat} {bytes : Bytes}
    (hroom : c.used + size ≤ capacity) (hfit : bytes.length ≤ size) :
    ((c.clear size).write bytes).memory.drop c.used =
      bytes ++ List.replicate (size - bytes.length) 0 ++ c.memory.drop (c.used + size) := by
  have hused : c.used ≤ c.memory.length := by
    rw [h.length_memory]
    omega
  have hclear := Bytes.drop_overwrite (List.replicate size 0) hused
  rw [List.length_replicate] at hclear
  have hlength : (Bytes.overwrite c.used (List.replicate size 0) c.memory).length =
      c.memory.length := by
    refine Bytes.length_overwrite _ _ _ ?_
    rw [List.length_replicate, h.length_memory]
    exact hroom
  have hwrite := Bytes.drop_overwrite bytes (Nat.le_trans hused (Nat.le_of_eq hlength.symm))
  have hrest : (Bytes.overwrite c.used (List.replicate size 0) c.memory).drop
      (c.used + bytes.length) =
        List.replicate (size - bytes.length) 0 ++ c.memory.drop (c.used + size) := by
    rw [← List.drop_drop, hclear, List.drop_append_of_le_length (by simpa using hfit),
      List.drop_replicate]
  rw [hrest, ← List.append_assoc] at hwrite
  exact hwrite

end SendChunk

namespace SendContext

variable {p : SendPool} {cx : SendContext}

/-- A buffer holds what was written, zero bytes behind it, and no more than
was cut off. -/
theorem read_of_put? (h : p.WellFormed) (hcurrent : ∀ chunk ∈ cx.current, chunk < p.created)
    {size : Nat} (hsize : size ≤ SendChunk.capacity) {bytes : Bytes} (hfit : bytes.length ≤ size)
    (length : Nat) :
    ∃ buffer p' cx', cx.put? size bytes length p = some (buffer, p', cx') ∧
      p'.read buffer =
        (bytes ++ List.replicate (size - bytes.length) 0).take (min length size) := by
  obtain ⟨hwf, -, -, -, -, c, hc, hroom⟩ := supply_opened hsize h hcurrent
  have hopen : cx.open? size p = some ((cx.supply size p).1,
      (cx.supply size p).2.modify (cx.supply size p).1 (SendChunk.clear size)) := by
    rw [open?, if_pos hsize]
  have hwritten := SendPool.getElem?_modify_self (f := SendChunk.write bytes)
    (SendPool.getElem?_modify_self (f := SendChunk.clear size) hc)
  unfold put?
  rw [hopen]
  refine ⟨_, _, _, rfl, ?_⟩
  unfold SendPool.read
  simp only [hwritten, SendPool.getElem?_modify_self hwritten, Option.elim_some]
  show (((c.clear size).write bytes).memory.drop c.used).take (min length size) = _
  rw [SendChunk.drop_write_clear (hwf _ c hc) hroom hfit]
  refine List.take_append_of_le_length ?_
  rw [List.length_append, List.length_replicate]
  omega

theorem read_of_putFrame? (h : p.WellFormed) (hcurrent : ∀ chunk ∈ cx.current, chunk < p.created)
    {id : UInt16} {body frame : Bytes} (hframe : Frame.build? id body = some frame)
    (hlength : frame.length ≤ SendChunk.capacity) :
    ∃ buffer p' cx', cx.putFrame? id body p = some (buffer, p', cx') ∧
      p'.read buffer = frame := by
  obtain ⟨buffer, p', cx', hput, hread⟩ :=
    read_of_put? h hcurrent hlength (Nat.le_refl frame.length) frame.length
  refine ⟨buffer, p', cx', ?_, ?_⟩
  · rw [putFrame?, hframe]
    exact hput
  · rw [hread, Nat.sub_self, Nat.min_self, List.replicate_zero, List.append_nil, List.take_length]

end SendContext

end SessionEngine

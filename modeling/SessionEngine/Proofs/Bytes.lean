import SessionEngine.Bytes

/-!
# Overwriting a part of a memory

What `Bytes.overwrite` leaves alone and what it writes, seen from the front
(`take_overwrite`), from behind (`drop_overwrite`), through a window on the
memory (`take_overwrite_within`, `drop_overwrite_behind`) and byte for byte
(`getElem?_overwrite`). A memory of which
only the front is kept, with zero bytes behind, is overwritten like the whole
(`padTo_overwrite`).
-/

namespace SessionEngine

namespace Bytes

section Overwriting

variable {offset : Nat} (patch : Bytes) {memory : Bytes}

/-- What is in front of the overwritten region stays. -/
theorem take_overwrite {n : Nat} (hn : n ≤ offset) (h : offset ≤ memory.length) :
    (overwrite offset patch memory).take n = memory.take n := by
  have hlength : (memory.take offset).length = offset := by
    rw [List.length_take, Nat.min_eq_left h]
  rw [overwrite, List.append_assoc,
    List.take_append_of_le_length (Nat.le_trans hn (Nat.le_of_eq hlength.symm)), List.take_take,
    Nat.min_eq_left hn]

theorem drop_overwrite (h : offset ≤ memory.length) :
    (overwrite offset patch memory).drop offset =
      patch ++ memory.drop (offset + patch.length) := by
  have hlength : (memory.take offset).length = offset := by
    rw [List.length_take, Nat.min_eq_left h]
  rw [overwrite, List.append_assoc]
  exact List.drop_left' hlength

theorem drop_overwrite_add (h : offset ≤ memory.length) :
    (overwrite offset patch memory).drop (offset + patch.length) =
      memory.drop (offset + patch.length) := by
  rw [← List.drop_drop, drop_overwrite patch h, List.drop_left]

/-- Overwriting behind some bytes is overwriting what is behind them. -/
theorem drop_overwrite_behind {front : Nat} (h : front ≤ memory.length) :
    (overwrite (front + offset) patch memory).drop front =
      overwrite offset patch (memory.drop front) := by
  have hlength : (memory.take front).length = front := by
    rw [List.length_take, Nat.min_eq_left h]
  rw [overwrite, overwrite, List.take_add, List.append_assoc, List.append_assoc,
    List.drop_left' hlength, List.drop_drop, List.append_assoc, Nat.add_assoc]

/-- Byte for byte, the patch lies where it was written, and the rest stays. -/
theorem getElem?_overwrite (h : offset + patch.length ≤ memory.length) (o : Nat) :
    (overwrite offset patch memory)[o]? =
      if offset ≤ o ∧ o < offset + patch.length then patch[o - offset]? else memory[o]? := by
  have hbefore : (memory.take offset).length = offset := by
    rw [List.length_take, Nat.min_eq_left (by omega)]
  rw [overwrite, List.append_assoc]
  by_cases hlt : o < offset
  · rw [if_neg (by omega), List.getElem?_append_left (by omega), List.getElem?_take_of_lt hlt]
  · rw [List.getElem?_append_right (by omega), hbefore]
    by_cases hin : o < offset + patch.length
    · rw [if_pos (by omega), List.getElem?_append_left (by omega)]
    · rw [if_neg (by omega), List.getElem?_append_right (by omega), List.getElem?_drop]
      congr 1
      omega

/-- Overwriting within the front is overwriting the front. -/
theorem take_overwrite_within {n : Nat} (hn : offset + patch.length ≤ n)
    (h : offset + patch.length ≤ memory.length) :
    (overwrite offset patch memory).take n = overwrite offset patch (memory.take n) := by
  have hlength : (memory.take offset ++ patch).length = offset + patch.length := by
    rw [List.length_append, List.length_take, Nat.min_eq_left (by omega)]
  rw [overwrite, overwrite, List.take_append, List.take_of_length_le (by omega), hlength,
    List.take_take, Nat.min_eq_left (by omega), List.drop_take]

end Overwriting

/-! ## Zero bytes behind -/

theorem padTo_of_length_le {width : Nat} {bs : Bytes} (h : bs.length ≤ width) :
    padTo width bs = bs ++ List.replicate (width - bs.length) 0 := by
  rw [padTo, List.take_of_length_le h]

theorem padTo_length (bs : Bytes) : padTo bs.length bs = bs := by
  rw [padTo_of_length_le (Nat.le_refl _), Nat.sub_self, List.replicate_zero, List.append_nil]

/-- Filling up with zero bytes before or after overwriting is the same. -/
theorem padTo_overwrite {offset width : Nat} {patch memory : Bytes}
    (hoffset : offset ≤ memory.length) (hmemory : memory.length ≤ width)
    (hpatch : offset + patch.length ≤ width) :
    padTo width (overwrite offset patch memory) = overwrite offset patch (padTo width memory) := by
  have hlength : (overwrite offset patch memory).length =
      offset + patch.length + (memory.length - (offset + patch.length)) := by
    rw [overwrite, List.length_append, List.length_append, List.length_take, List.length_drop,
      Nat.min_eq_left hoffset]
  rw [padTo_of_length_le (by omega), padTo_of_length_le hmemory, hlength, overwrite, overwrite,
    List.take_append_of_le_length hoffset, List.drop_append, List.drop_replicate,
    List.append_assoc _ (memory.drop _)]
  congr 3
  omega

end Bytes

end SessionEngine

import SessionEngine.ReceiveBuffer

/-!
# A receive buffer is a queue of bytes

Whatever the cursors do, a receive buffer shows its unread bytes as one list
(`ReceiveBuffer.data`), and each operation does to that list what a queue
would do: `data_of_write?` appends, `data_of_consume?` drops from the front,
and `data_compact` leaves the list alone.

The second concern is room. Compaction is lazy, so the free tail says little
about how many bytes are unread; but right after `compact` the tail is empty
only if the unread bytes fill the whole memory (`free_compact_eq_zero_iff`).
A session that ends because its tail is empty therefore never ends early.
-/

namespace SessionEngine

namespace ReceiveBuffer

/-- The cursors are in order, and everything before the free tail is memory
that was in use. -/
structure WellFormed (b : ReceiveBuffer) : Prop where
  readPos_le : b.readPos ≤ b.writePos
  writePos_le_length : b.writePos ≤ b.memory.length
  writePos_le_capacity : b.writePos ≤ b.capacity

theorem wellFormed_empty (nominal : Nat) : (empty nominal).WellFormed :=
  ⟨Nat.le_refl _, Nat.zero_le _, Nat.zero_le _⟩

@[simp] theorem data_empty (nominal : Nat) : (empty nominal).data = [] := by
  simp [data, empty]

@[simp] theorem capacity_empty (nominal : Nat) : (empty nominal).capacity = readsHeld * nominal :=
  rfl

/-- The length of the memory is a word as long as nominal reads are not too
long, and then the cursors are as well. -/
theorem capacity_lt_size_iff (b : ReceiveBuffer) :
    b.capacity < UInt64.size ↔ b.nominal ≤ maxNominal := by
  rw [capacity, maxNominal, readsHeld, UInt64.size]
  omega

theorem WellFormed.writePos_lt_size {b : ReceiveBuffer} (h : b.WellFormed)
    (hnominal : b.nominal ≤ maxNominal) : b.writePos < UInt64.size :=
  Nat.lt_of_le_of_lt h.writePos_le_capacity (b.capacity_lt_size_iff.mpr hnominal)

theorem length_data {b : ReceiveBuffer} (h : b.WellFormed) : b.data.length = b.size := by
  have hread := h.readPos_le
  have hwrite := h.writePos_le_length
  simp only [data, size, List.length_take, List.length_drop]
  omega

/-- The unread bytes are those between the cursors. -/
theorem data_eq (b : ReceiveBuffer) : b.data = (b.memory.take b.writePos).drop b.readPos := by
  rw [data, size, List.drop_take]

/-- What is free and what is unread do not exceed the memory. -/
theorem length_data_add_free_le {b : ReceiveBuffer} (h : b.WellFormed) :
    b.data.length + b.free ≤ b.capacity := by
  have hcap := h.writePos_le_capacity
  rw [length_data h, size, free]
  omega

/-! ## Writing -/

theorem write?_eq_some {b : ReceiveBuffer} {bytes : Bytes} (hfit : bytes.length ≤ b.free) :
    ∃ b', b.write? bytes = some b' := by
  rw [write?, if_pos hfit]
  exact ⟨_, rfl⟩

theorem length_le_of_write? {b b' : ReceiveBuffer} {bytes : Bytes}
    (hw : b.write? bytes = some b') : bytes.length ≤ b.free := by
  rw [write?] at hw
  split at hw
  next hfit => exact hfit
  next => cases hw

theorem nominal_of_write? {b b' : ReceiveBuffer} {bytes : Bytes}
    (hw : b.write? bytes = some b') : b'.nominal = b.nominal := by
  rw [write?] at hw
  split at hw
  · cases hw
    rfl
  · cases hw

theorem wellFormed_of_write? {b b' : ReceiveBuffer} {bytes : Bytes} (h : b.WellFormed)
    (hw : b.write? bytes = some b') : b'.WellFormed := by
  have hread := h.readPos_le
  have hlen := h.writePos_le_length
  have hcap := h.writePos_le_capacity
  have hfit := length_le_of_write? hw
  rw [write?, if_pos hfit] at hw
  cases hw
  rw [free] at hfit
  refine ⟨?_, ?_, ?_⟩
  · show b.readPos ≤ b.writePos + bytes.length
    omega
  · show b.writePos + bytes.length ≤ (Bytes.overwrite b.writePos bytes b.memory).length
    simp only [Bytes.overwrite, List.length_append, List.length_take, List.length_drop]
    omega
  · show b.writePos + bytes.length ≤ b.capacity
    omega

/-- Bytes that are written come behind those that are unread. -/
theorem data_of_write? {b b' : ReceiveBuffer} {bytes : Bytes} (h : b.WellFormed)
    (hw : b.write? bytes = some b') : b'.data = b.data ++ bytes := by
  have hread := h.readPos_le
  have hlen := h.writePos_le_length
  rw [write?, if_pos (length_le_of_write? hw)] at hw
  cases hw
  have htaken : (b.memory.take b.writePos ++ bytes).length = b.writePos + bytes.length := by
    simp only [List.length_append, List.length_take]
    omega
  rw [data_eq, data_eq]
  show ((Bytes.overwrite b.writePos bytes b.memory).take (b.writePos + bytes.length)).drop
    b.readPos = _
  rw [Bytes.overwrite, List.take_append_of_le_length (by omega),
    List.take_of_length_le (by omega), List.drop_append_of_le_length (by simp; omega)]

/-! ## Consuming -/

theorem consume?_eq_some {b : ReceiveBuffer} {n : Nat} (hn : n ≤ b.size) :
    ∃ b', b.consume? n = some b' := by
  rw [consume?, if_pos hn]
  exact ⟨_, rfl⟩

theorem le_size_of_consume? {b b' : ReceiveBuffer} {n : Nat} (hc : b.consume? n = some b') :
    n ≤ b.size := by
  rw [consume?] at hc
  split at hc
  next hn => exact hn
  next => cases hc

theorem nominal_of_consume? {b b' : ReceiveBuffer} {n : Nat} (hc : b.consume? n = some b') :
    b'.nominal = b.nominal := by
  rw [consume?, if_pos (le_size_of_consume? hc)] at hc
  cases hc
  rfl

theorem wellFormed_of_consume? {b b' : ReceiveBuffer} {n : Nat} (h : b.WellFormed)
    (hc : b.consume? n = some b') : b'.WellFormed := by
  have hread := h.readPos_le
  have hn := le_size_of_consume? hc
  rw [consume?, if_pos hn] at hc
  cases hc
  rw [size] at hn
  refine ⟨?_, h.writePos_le_length, h.writePos_le_capacity⟩
  show b.readPos + n ≤ b.writePos
  omega

/-- Bytes that are consumed are the first that are unread. -/
theorem data_of_consume? {b b' : ReceiveBuffer} {n : Nat} (hc : b.consume? n = some b') :
    b'.data = b.data.drop n := by
  rw [consume?, if_pos (le_size_of_consume? hc)] at hc
  cases hc
  rw [data_eq, data_eq, List.drop_drop]

/-! ## Compacting -/

@[simp] theorem nominal_compact (b : ReceiveBuffer) : b.compact.nominal = b.nominal := by
  rw [compact]
  split
  · rfl
  · split <;> rfl

@[simp] theorem capacity_compact (b : ReceiveBuffer) : b.compact.capacity = b.capacity := by
  rw [capacity, nominal_compact, capacity]

theorem wellFormed_compact {b : ReceiveBuffer} (h : b.WellFormed) : b.compact.WellFormed := by
  have hread := h.readPos_le
  have hlen := h.writePos_le_length
  have hcap := h.writePos_le_capacity
  rw [compact]
  split
  · exact ⟨Nat.le_refl _, Nat.zero_le _, Nat.zero_le _⟩
  · split
    · refine ⟨Nat.zero_le _, ?_, ?_⟩
      · show b.size ≤ (Bytes.overwrite 0 b.data b.memory).length
        simp only [Bytes.overwrite, List.length_append, List.length_take, length_data h]
        omega
      · show b.size ≤ b.capacity
        rw [size]
        omega
    · exact h

/-- Moving the unread bytes does not change them. -/
theorem data_compact {b : ReceiveBuffer} (h : b.WellFormed) : b.compact.data = b.data := by
  have hdata := length_data h
  rw [compact]
  split
  next hempty =>
      have hnil : b.data = [] := List.eq_nil_of_length_eq_zero (hdata.trans hempty)
      rw [hnil]
      simp [data, size]
  next =>
      split
      next =>
          rw [data_eq]
          show ((Bytes.overwrite 0 b.data b.memory).take b.size).drop 0 = b.data
          rw [Bytes.overwrite, List.take_zero, List.nil_append, List.drop_zero,
            List.take_append_of_le_length (by omega), List.take_of_length_le (by omega)]
      next => rfl

/-- After compacting, only bytes that nobody has consumed can leave no room. -/
theorem free_compact_eq_zero_iff {b : ReceiveBuffer} (h : b.WellFormed) (hpos : 0 < b.nominal) :
    b.compact.free = 0 ↔ b.data.length = b.capacity := by
  have hread := h.readPos_le
  have hcap := h.writePos_le_capacity
  have hcapacity : 0 < b.capacity := by
    rw [capacity, readsHeld]
    omega
  rw [length_data h, compact]
  split
  next hempty =>
      show b.capacity - 0 = 0 ↔ b.size = b.capacity
      omega
  next =>
      split
      next =>
          show b.capacity - b.size = 0 ↔ b.size = b.capacity
          rw [size]
          omega
      next hroom =>
          rw [free] at hroom ⊢
          rw [size]
          omega

end ReceiveBuffer

end SessionEngine

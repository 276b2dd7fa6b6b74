/-!
# Byte strings

What travels on a connection, what a file holds and what a buffer keeps are
all byte strings, kept as lists so that cutting, joining and comparing them
are list operations.

This file has the few shapes that the wire and the buffers share:

- **little-endian integers** (`littleEndian`, `ofLittleEndian`): reading
  what was written gives the number back, reduced to the width
  (`ofLittleEndian_littleEndian`), so a word comes back whole
  (`word32_append`);
- **fixed-width text fields** (`padTo`, `beforeNul`): short contents are
  filled up with zero bytes and cut again at the first of them
  (`beforeNul_padTo`);
- **overwriting a region** (`overwrite`): the bytes before and behind the
  region stay (`length_overwrite`).
-/

namespace SessionEngine

abbrev Bytes := List UInt8

namespace Bytes

/-! ## Little-endian integers -/

/-- The `width` low bytes of `n`, least significant first. -/
def littleEndian : (width : Nat) → (n : Nat) → Bytes
  | 0, _ => []
  | width + 1, n => UInt8.ofNat n :: littleEndian width (n / 256)

/-- The number that a byte string holds, least significant byte first. -/
def ofLittleEndian : Bytes → Nat
  | [] => 0
  | b :: bs => b.toNat + 256 * ofLittleEndian bs

@[simp] theorem length_littleEndian (width n : Nat) :
    (littleEndian width n).length = width := by
  induction width generalizing n with
  | zero => rfl
  | succ width ih => simp [littleEndian, ih]

/-- Reading back what was written gives the number modulo the width. -/
theorem ofLittleEndian_littleEndian (width n : Nat) :
    ofLittleEndian (littleEndian width n) = n % Nat.pow 256 width := by
  induction width generalizing n with
  | zero => simp [littleEndian, ofLittleEndian, Nat.mod_one]
  | succ width ih =>
      simp only [littleEndian, ofLittleEndian, ih, UInt8.toNat_ofNat']
      have step : Nat.pow 256 (width + 1) = 256 * Nat.pow 256 width := Nat.mul_comm _ _
      rw [step, Nat.mod_mul]

/-! ## Words

The integer fields of a frame. Each is read at its offset; bytes that are
missing there count as absent high bytes. -/

def ofWord16 (w : UInt16) : Bytes := littleEndian 2 w.toNat

def ofWord32 (w : UInt32) : Bytes := littleEndian 4 w.toNat

def ofWord64 (w : UInt64) : Bytes := littleEndian 8 w.toNat

def word16 (offset : Nat) (bs : Bytes) : UInt16 :=
  UInt16.ofNat (ofLittleEndian ((bs.drop offset).take 2))

def word32 (offset : Nat) (bs : Bytes) : UInt32 :=
  UInt32.ofNat (ofLittleEndian ((bs.drop offset).take 4))

def word64 (offset : Nat) (bs : Bytes) : UInt64 :=
  UInt64.ofNat (ofLittleEndian ((bs.drop offset).take 8))

@[simp] theorem length_ofWord16 (w : UInt16) : (ofWord16 w).length = 2 := by
  simp [ofWord16]

@[simp] theorem length_ofWord32 (w : UInt32) : (ofWord32 w).length = 4 := by
  simp [ofWord32]

@[simp] theorem length_ofWord64 (w : UInt64) : (ofWord64 w).length = 8 := by
  simp [ofWord64]

/-- The region behind `before` of the length of `field` is `field`. -/
theorem take_drop_of_append {before field after : Bytes} {offset width : Nat}
    (hoffset : before.length = offset) (hwidth : field.length = width) :
    ((before ++ field ++ after).drop offset).take width = field := by
  subst hoffset hwidth
  simp

theorem word16_append (before after : Bytes) {offset : Nat} (w : UInt16)
    (h : before.length = offset) :
    word16 offset (before ++ ofWord16 w ++ after) = w := by
  rw [word16, take_drop_of_append h (length_ofWord16 w), ofWord16,
    ofLittleEndian_littleEndian, Nat.mod_eq_of_lt (by exact w.toNat_lt)]
  exact UInt16.ofNat_toNat

theorem word32_append (before after : Bytes) {offset : Nat} (w : UInt32)
    (h : before.length = offset) :
    word32 offset (before ++ ofWord32 w ++ after) = w := by
  rw [word32, take_drop_of_append h (length_ofWord32 w), ofWord32,
    ofLittleEndian_littleEndian, Nat.mod_eq_of_lt (by exact w.toNat_lt)]
  exact UInt32.ofNat_toNat

theorem word64_append (before after : Bytes) {offset : Nat} (w : UInt64)
    (h : before.length = offset) :
    word64 offset (before ++ ofWord64 w ++ after) = w := by
  rw [word64, take_drop_of_append h (length_ofWord64 w), ofWord64,
    ofLittleEndian_littleEndian, Nat.mod_eq_of_lt (by exact w.toNat_lt)]
  exact UInt64.ofNat_toNat

/-! ## Fixed-width text fields -/

/-- `bs` cut or filled up with zero bytes to exactly `width` bytes. -/
def padTo (width : Nat) (bs : Bytes) : Bytes :=
  bs.take width ++ List.replicate (width - bs.length) 0

/-- The bytes before the first zero byte, all of them if there is none. -/
def beforeNul (bs : Bytes) : Bytes :=
  bs.takeWhile (· != 0)

@[simp] theorem length_padTo (width : Nat) (bs : Bytes) :
    (padTo width bs).length = width := by
  simp [padTo]; omega

theorem beforeNul_append_of_zero_notMem (bs rest : Bytes) (h : (0 : UInt8) ∉ bs) :
    beforeNul (bs ++ rest) = bs ++ beforeNul rest := by
  unfold beforeNul
  rw [List.takeWhile_append_of_pos]
  intro b hb
  simp only [bne_iff_ne, ne_eq]
  exact fun h0 => h (h0 ▸ hb)

/-- Filling up with zero bytes does not change what stands before the first. -/
theorem beforeNul_append_replicate (bs : Bytes) (k : Nat) :
    beforeNul (bs ++ List.replicate k 0) = beforeNul bs := by
  induction bs with
  | nil => cases k <;> simp [beforeNul, List.replicate_succ]
  | cons b bs ih =>
      by_cases hb : b = 0
      · simp [beforeNul, hb]
      · simpa [beforeNul, hb] using ih

/-- A field gives its contents back up to their first zero byte. -/
theorem beforeNul_padTo (width : Nat) (bs : Bytes) (h : bs.length ≤ width) :
    beforeNul (padTo width bs) = beforeNul bs := by
  rw [padTo, List.take_of_length_le h, beforeNul_append_replicate]

/-! ## Overwriting -/

/-- `memory` with the region that starts at `offset` replaced by `patch`. -/
def overwrite (offset : Nat) (patch memory : Bytes) : Bytes :=
  memory.take offset ++ patch ++ memory.drop (offset + patch.length)

theorem length_overwrite (offset : Nat) (patch memory : Bytes)
    (h : offset + patch.length ≤ memory.length) :
    (overwrite offset patch memory).length = memory.length := by
  simp [overwrite]; omega

/-- The overwritten region reads as the patch. -/
theorem take_drop_overwrite (offset : Nat) (patch memory : Bytes)
    (h : offset ≤ memory.length) :
    ((overwrite offset patch memory).drop offset).take patch.length = patch := by
  have hlen : (memory.take offset).length = offset := by simp; omega
  rw [overwrite, List.append_assoc, List.drop_append_of_le_length (by omega),
    List.drop_of_length_le (by omega)]
  simp

end Bytes

end SessionEngine

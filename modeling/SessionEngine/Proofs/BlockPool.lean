import SessionEngine.BlockPool

/-!
# Blocks hold what was written into them

A block has the length that was asked for, whatever the pool had in store, and
shows what was written over all of that length, whatever its memory held
before.
-/

namespace SessionEngine

namespace BlockPool

theorem length_allocate (length : Nat) (pool : BlockPool) :
    (allocate length pool).1.length = length := by
  induction pool with
  | nil => rfl
  | cons c cs ih =>
      rw [allocate]
      split
      · rfl
      · exact ih

/-- The pool after a block of this length was handed out, got these bytes at
its beginning, and was taken back. -/
def lend (length : Nat) (bytes : Bytes) (pool : BlockPool) : BlockPool :=
  release ((allocate length pool).1.write 0 bytes) (allocate length pool).2

end BlockPool

namespace Block

theorem contents_write {b : Block} {bytes : Bytes} (h : bytes.length = b.length) :
    (b.write 0 bytes).contents = bytes := by
  rw [write, contents, Bytes.overwrite, List.take_zero, List.nil_append]
  exact List.take_left' h

end Block

end SessionEngine

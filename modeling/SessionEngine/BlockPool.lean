import SessionEngine.Bytes
import SessionEngine.Table

/-!
# Block pools

Working memory for short use is handed out in blocks of a few fixed sizes and
taken back for the next caller. A request gets a block of the smallest size
class that holds it; a request beyond all classes gets a block of its own,
which is not taken back.

Released blocks keep their contents, and the one released last is handed out
first. A block that its holder lost without releasing it is gone for the pool
(`Holdings.drop`).
-/

namespace SessionEngine

/-- Memory that was handed out. -/
structure Block where
  /-- The whole memory, which may be longer than what was asked for. -/
  memory : Bytes
  length : Nat
  /-- The size class it belongs to, if any. -/
  sizeClass : Option Nat
deriving DecidableEq

namespace Block

/-- The part that was asked for. -/
def contents (b : Block) : Bytes := b.memory.take b.length

def write (offset : Nat) (bytes : Bytes) (b : Block) : Block :=
  { b with memory := Bytes.overwrite offset bytes b.memory }

end Block

structure SizeClass where
  size : Nat
  /-- The memory of the blocks that are not in use, last released first. -/
  free : List Bytes
  /-- How many blocks have ever been created. -/
  created : Nat
deriving DecidableEq

namespace SizeClass

def new (size : Nat) : SizeClass := ⟨size, [], 0⟩

/-- Memory of this class: the last released one, or new memory if none is
free. -/
def take (c : SizeClass) : Bytes × SizeClass :=
  match c.free with
  | memory :: free => (memory, { c with free })
  | [] => (List.replicate c.size 0, { c with created := c.created + 1 })

end SizeClass

/-- The size classes, smallest first. -/
abbrev BlockPool := List SizeClass

namespace BlockPool

/-- The sizes of blocks: steps of 32 up to 1024, steps of 128 up to 4096, and
one that holds the longest frame. -/
def sizes : List Nat :=
  (List.range 32).map (fun i => 32 * (i + 1)) ++
    (List.range 24).map (fun i => 1152 + 128 * i) ++ [6000]

def empty : BlockPool := sizes.map SizeClass.new

/-- Hands out a block of the smallest class that holds `length` bytes. -/
def allocate (length : Nat) : BlockPool → Block × BlockPool
  | [] => (⟨List.replicate length 0, length, none⟩, [])
  | c :: cs =>
      if length ≤ c.size then
        (⟨c.take.1, length, some c.size⟩, c.take.2 :: cs)
      else
        ((allocate length cs).1, c :: (allocate length cs).2)

/-- Puts memory back into the class of this size. -/
def put (size : Nat) (memory : Bytes) : BlockPool → BlockPool
  | [] => []
  | c :: cs =>
      if c.size = size then { c with free := memory :: c.free } :: cs
      else c :: put size memory cs

/-- Takes a block back. A block without a class is freed. -/
def release (block : Block) (pool : BlockPool) : BlockPool :=
  match block.sizeClass with
  | some size => put size block.memory pool
  | none => pool

/-- The class that serves requests of this length. -/
def classFor? (length : Nat) (pool : BlockPool) : Option SizeClass :=
  pool.find? (fun c => length ≤ c.size)

end BlockPool

/-! ## Pools with their outstanding blocks -/

/-- A pool together with the blocks handed out, each under a name. -/
structure Holdings where
  pool : BlockPool
  /-- The blocks in use. -/
  held : Table String Block

namespace Holdings

def empty : Holdings := ⟨BlockPool.empty, []⟩

/-- Takes a block from the pool and keeps it under a name. What was kept
under the name is lost. -/
def allocate (name : String) (length : Nat) (s : Holdings) : Block × Holdings :=
  let (block, pool) := BlockPool.allocate length s.pool
  (block, ⟨pool, s.held.insert name block⟩)

def write (name : String) (offset : Nat) (bytes : Bytes) (s : Holdings) : Holdings :=
  match s.held.get? name with
  | some block => { s with held := s.held.insert name (block.write offset bytes) }
  | none => s

def release (name : String) (s : Holdings) : Holdings :=
  match s.held.get? name with
  | some block => ⟨BlockPool.release block s.pool, s.held.erase name⟩
  | none => s

/-- Loses a held block: the pool does not get it back. -/
def drop (name : String) (s : Holdings) : Holdings :=
  { s with held := s.held.erase name }

end Holdings

end SessionEngine

import SessionEngine.BlockPool

/-!
# Size classes

What a pool hands out and takes back, seen from one size class: a request is
served by the smallest class that holds it (`classFor?_eq_some_iff`), which
gives the memory that was released last or creates some (`Supplies`), and all
other classes stay as they are (`ofSize?_allocate`, `ofSize?_put`).
-/

namespace SessionEngine

/-- Whether a block belongs to the class of this size. -/
def Block.isOf (size : Nat) (b : Block) : Bool := b.sizeClass = some size

namespace BlockPool

def ofSize? (size : Nat) (pool : BlockPool) : Option SizeClass :=
  pool.find? (fun c => c.size = size)

variable {pool pool' : BlockPool} {c : SizeClass} {size length : Nat} {memory : Bytes}

theorem le_size_of_classFor? (h : classFor? length pool = some c) : length ≤ c.size :=
  of_decide_eq_true (List.find?_some (p := fun c : SizeClass => decide (length ≤ c.size)) h)

/-! ## Sizes -/

def sizesOf (pool : BlockPool) : List Nat := pool.map SizeClass.size

theorem ascending_sizes : sizes.Pairwise (· < ·) := by decide +kernel

theorem sizesOf_empty : sizesOf empty = sizes := by
  rw [sizesOf, empty, List.map_map]
  exact List.map_id'' (fun _ => rfl) sizes

/-- Where sizes ascend, each class is the only one of its size. -/
theorem ofSize?_of_mem (hsizes : (sizesOf pool).Pairwise (· < ·)) (hc : c ∈ pool) :
    ofSize? c.size pool = some c := by
  induction pool with
  | nil => cases hc
  | cons first rest ih =>
      obtain ⟨hfirst, hrest⟩ := List.pairwise_cons.mp hsizes
      rw [ofSize?, List.find?_cons]
      rcases List.mem_cons.mp hc with rfl | hlater
      · rw [decide_eq_true rfl]
      · have hlt : first.size < c.size := hfirst _ (List.mem_map_of_mem hlater)
        rw [decide_eq_false (Nat.ne_of_lt hlt)]
        exact ih hrest hlater

/-- A request is served by the smallest class that holds it. -/
theorem classFor?_eq_some_iff (hsizes : (sizesOf pool).Pairwise (· < ·)) :
    classFor? length pool = some c ↔
      c ∈ pool ∧ length ≤ c.size ∧ ∀ other ∈ sizesOf pool, length ≤ other → c.size ≤ other := by
  induction pool with
  | nil => simp [classFor?]
  | cons first rest ih =>
      obtain ⟨hfirst, hrest⟩ := List.pairwise_cons.mp hsizes
      rw [classFor?, List.find?_cons, ← classFor?]
      by_cases hfit : length ≤ first.size
      · rw [decide_eq_true hfit]
        constructor
        · intro heq
          obtain rfl := Option.some.inj heq
          refine ⟨List.mem_cons_self, hfit, fun other hother _ => ?_⟩
          rcases List.mem_cons.mp hother with rfl | hlater
          · exact Nat.le_refl _
          · exact Nat.le_of_lt (hfirst other hlater)
        · rintro ⟨hmem, -, hleast⟩
          rcases List.mem_cons.mp hmem with rfl | hlater
          · rfl
          · have hlt : first.size < c.size := hfirst _ (List.mem_map_of_mem hlater)
            exact absurd (hleast first.size List.mem_cons_self hfit) (Nat.not_le.mpr hlt)
      · rw [decide_eq_false hfit, ih hrest]
        constructor
        · rintro ⟨hmem, hlength, hleast⟩
          refine ⟨List.mem_cons_of_mem _ hmem, hlength, fun other hother hle => ?_⟩
          rcases List.mem_cons.mp hother with rfl | hlater
          · exact absurd hle hfit
          · exact hleast other hlater hle
        · rintro ⟨hmem, hlength, hleast⟩
          refine ⟨?_, hlength, fun other hother => hleast other (List.mem_cons_of_mem _ hother)⟩
          rcases List.mem_cons.mp hmem with rfl | hlater
          · exact absurd hlength hfit
          · exact hlater

/-! ## Handing out -/

theorem ofSize?_of_classFor? (h : classFor? length pool = some c) :
    ofSize? c.size pool = some c := by
  induction pool with
  | nil => cases h
  | cons first rest ih =>
      rw [classFor?, List.find?_cons] at h
      rw [ofSize?, List.find?_cons]
      split at h
      · obtain rfl := Option.some.inj h
        rw [decide_eq_true rfl]
      next hsmall =>
          have hne : first.size ≠ c.size := by
            intro heq
            have hle : length ≤ c.size :=
              le_size_of_classFor? (show classFor? length rest = some c from h)
            rw [← heq] at hle
            exact of_decide_eq_false hsmall hle
          rw [decide_eq_false hne]
          exact ih h

theorem allocate_of_none (h : classFor? length pool = none) :
    allocate length pool = (⟨List.replicate length 0, length, none⟩, pool) := by
  induction pool with
  | nil => rfl
  | cons first rest ih =>
      obtain ⟨hfirst, hrest⟩ := List.forall_mem_cons.mp (List.find?_eq_none.mp h)
      rw [allocate, if_neg (by simpa using hfirst), ih (List.find?_eq_none.mpr hrest)]

theorem fst_allocate (h : classFor? length pool = some c) :
    (allocate length pool).1 = ⟨c.take.1, length, some c.size⟩ := by
  induction pool with
  | nil => cases h
  | cons first rest ih =>
      rw [classFor?, List.find?_cons] at h
      rw [allocate]
      split at h
      next hfit =>
          obtain rfl := Option.some.inj h
          rw [if_pos (of_decide_eq_true hfit)]
      next hsmall =>
          rw [if_neg (of_decide_eq_false hsmall)]
          exact ih h

theorem size_take (c : SizeClass) : c.take.2.size = c.size := by
  rw [SizeClass.take]
  split <;> rfl

/-- Only the class that serves a request changes. -/
theorem ofSize?_allocate (h : classFor? length pool = some c) (size : Nat) :
    ofSize? size (allocate length pool).2 =
      if size = c.size then some c.take.2 else ofSize? size pool := by
  induction pool with
  | nil => cases h
  | cons first rest ih =>
      rw [classFor?, List.find?_cons] at h
      rw [allocate]
      split at h
      next hfit =>
          obtain rfl := Option.some.inj h
          rw [if_pos (of_decide_eq_true hfit), ofSize?, List.find?_cons, size_take, ofSize?,
            List.find?_cons]
          by_cases hsize : size = first.size
          · rw [decide_eq_true hsize.symm, if_pos hsize]
          · rw [decide_eq_false (Ne.symm hsize), if_neg hsize]
      next hsmall =>
          have hle : length ≤ c.size :=
            le_size_of_classFor? (show classFor? length rest = some c from h)
          have hlt : first.size < length := Nat.not_le.mp (of_decide_eq_false hsmall)
          rw [if_neg (of_decide_eq_false hsmall), ofSize?, List.find?_cons, ofSize?,
            List.find?_cons]
          by_cases hsize : first.size = size
          · rw [decide_eq_true hsize, if_neg (by omega)]
          · rw [decide_eq_false hsize]
            exact ih h

theorem sizesOf_allocate (length : Nat) (pool : BlockPool) :
    sizesOf (allocate length pool).2 = sizesOf pool := by
  induction pool with
  | nil => rfl
  | cons first rest ih =>
      rw [allocate]
      split
      · exact congrArg (· :: sizesOf rest) (size_take first)
      · exact congrArg (first.size :: ·) ih

/-- How a pool serves a request. -/
inductive Supplies (pool : BlockPool) (length : Nat) : Block → BlockPool → Prop where
  /-- There is no class for it, and the pool has no part in it. -/
  | alone (hnone : classFor? length pool = none) :
      Supplies pool length ⟨List.replicate length 0, length, none⟩ pool
  /-- The memory that was released last is used again, as it is. -/
  | reused {c : SizeClass} {memory : Bytes} {rest : List Bytes} {pool' : BlockPool}
      (hclass : classFor? length pool = some c) (hfree : c.free = memory :: rest)
      (hafter : ofSize? c.size pool' = some { c with free := rest })
      (hother : ∀ size, size ≠ c.size → ofSize? size pool' = ofSize? size pool) :
      Supplies pool length ⟨memory, length, some c.size⟩ pool'
  /-- No memory is free, and some is created. -/
  | created {c : SizeClass} {pool' : BlockPool}
      (hclass : classFor? length pool = some c) (hfree : c.free = [])
      (hafter : ofSize? c.size pool' = some { c with created := c.created + 1 })
      (hother : ∀ size, size ≠ c.size → ofSize? size pool' = ofSize? size pool) :
      Supplies pool length ⟨List.replicate c.size 0, length, some c.size⟩ pool'

theorem allocate_supplies (length : Nat) (pool : BlockPool) :
    Supplies pool length (allocate length pool).1 (allocate length pool).2 := by
  cases hclass : classFor? length pool with
  | none =>
      rw [allocate_of_none hclass]
      exact .alone hclass
  | some c =>
      have hafter := ofSize?_allocate hclass
      have hblock := fst_allocate hclass
      have hserving : ofSize? c.size (allocate length pool).2 = some c.take.2 :=
        (hafter c.size).trans (if_pos rfl)
      have hother : ∀ size, size ≠ c.size →
          ofSize? size (allocate length pool).2 = ofSize? size pool :=
        fun size hne => (hafter size).trans (if_neg hne)
      rw [hblock]
      rw [SizeClass.take] at hserving ⊢
      split at hserving
      next memory rest hfree => exact .reused hclass hfree hserving hother
      next hfree => exact .created hclass hfree hserving hother

/-! ## Taking back -/

/-- Only the class of the memory changes. -/
theorem ofSize?_put (given : Nat) (memory : Bytes) (pool : BlockPool) (size : Nat) :
    ofSize? size (put given memory pool) =
      if size = given then
        (ofSize? size pool).map fun c => { c with free := memory :: c.free }
      else ofSize? size pool := by
  induction pool with
  | nil => simp [put, ofSize?]
  | cons first rest ih =>
      rw [put]
      by_cases hgiven : first.size = given
      · rw [if_pos hgiven, ofSize?, List.find?_cons, ofSize?, List.find?_cons]
        by_cases hsize : first.size = size
        · rw [decide_eq_true hsize, if_pos (hsize.symm.trans hgiven)]
          rfl
        · rw [decide_eq_false hsize, if_neg (fun heq => hsize (hgiven.trans heq.symm))]
      · rw [if_neg hgiven, ofSize?, List.find?_cons, ofSize?, List.find?_cons]
        by_cases hsize : first.size = size
        · rw [decide_eq_true hsize, if_neg (fun heq => hgiven (hsize.trans heq))]
        · rw [decide_eq_false hsize]
          exact ih

theorem sizesOf_put (given : Nat) (memory : Bytes) (pool : BlockPool) :
    sizesOf (put given memory pool) = sizesOf pool := by
  induction pool with
  | nil => rfl
  | cons first rest ih =>
      rw [put]
      split
      · rfl
      · exact congrArg (first.size :: ·) ih

theorem release_of_none {b : Block} (h : b.sizeClass = none) (pool : BlockPool) :
    release b pool = pool := by
  rw [release, h]

theorem release_of_some {b : Block} (h : b.sizeClass = some size) (pool : BlockPool) :
    release b pool = put size b.memory pool := by
  rw [release, h]

theorem sizesOf_release (b : Block) (pool : BlockPool) :
    sizesOf (release b pool) = sizesOf pool := by
  rw [release]
  split
  · exact sizesOf_put _ _ _
  · rfl

end BlockPool

end SessionEngine

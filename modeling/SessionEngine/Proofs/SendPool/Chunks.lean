import Mathlib.Data.List.Perm.Subperm
import SessionEngine.Proofs.Bytes
import SessionEngine.SendPool

/-!
# What becomes of chunks

A change of a chunk spares the buffers that were cut from it if it leaves
their number and their bytes alone (`SendChunk.Spares`). A chunk that nobody
refers to may be changed at will, which is why rewinding a reusable chunk
spares its buffers although it makes all of its bytes free.

`pop_popped` and `open?_opened` say once all that taking a chunk out of the
pool and opening a region do: to the chunks, and to the numbers of those that
wait and of the one that is handed out. What is handed out or waits afterwards
was the context's own, or waited, or is new.
-/

namespace SessionEngine

namespace SendChunk

/-- The memory is whole, and the buffers lie in it. -/
structure WellFormed (c : SendChunk) : Prop where
  length_memory : c.memory.length = capacity
  used_le : c.used ≤ capacity

theorem wellFormed_new : new.WellFormed where
  length_memory := List.length_replicate
  used_le := Nat.zero_le _

/-- A change leaves the buffers alone: their number and, if there are any,
their bytes and the place where the next one begins. -/
structure Spares (c c' : SendChunk) : Prop where
  refs_eq : c'.refs = c.refs
  used_eq : c.refs ≠ 0 → c'.used = c.used
  memory_eq : c.refs ≠ 0 → c'.memory.take c.used = c.memory.take c.used

theorem Spares.refl (c : SendChunk) : c.Spares c := ⟨rfl, fun _ => rfl, fun _ => rfl⟩

theorem Spares.trans {c c' c'' : SendChunk} (h : c.Spares c') (h' : c'.Spares c'') :
    c.Spares c'' := by
  have hrefs : c.refs ≠ 0 → c'.refs ≠ 0 := fun hne => by
    rw [h.refs_eq]
    exact hne
  refine ⟨h'.refs_eq.trans h.refs_eq, fun hne => ?_, fun hne => ?_⟩
  · exact (h'.used_eq (hrefs hne)).trans (h.used_eq hne)
  · have hmemory := h'.memory_eq (hrefs hne)
    rw [h.used_eq hne] at hmemory
    exact hmemory.trans (h.memory_eq hne)

section Changes

variable {c : SendChunk}

theorem WellFormed.rewind (h : c.WellFormed) : c.rewind.WellFormed :=
  ⟨h.length_memory, Nat.zero_le _⟩

/-- Either nobody refers to a reusable chunk, or all of it is free already. -/
theorem spares_rewind (h : c.reusable = true) : c.Spares c.rewind := by
  have hused : c.refs ≠ 0 → c.used = 0 := by
    intro hne
    simpa [reusable, hne] using h
  exact ⟨rfl, fun hne => (hused hne).symm, fun _ => rfl⟩

/-- Writes somewhere behind the bytes that belong to buffers. -/
def writeAt (at_ : Nat) (bytes : Bytes) (c : SendChunk) : SendChunk :=
  { c with memory := Bytes.overwrite (c.used + at_) bytes c.memory }

theorem WellFormed.writeAt (h : c.WellFormed) {at_ : Nat} {bytes : Bytes}
    (hfit : c.used + at_ + bytes.length ≤ capacity) : (c.writeAt at_ bytes).WellFormed := by
  refine ⟨?_, h.used_le⟩
  rw [SendChunk.writeAt, Bytes.length_overwrite _ _ _ (by rw [h.length_memory]; exact hfit)]
  exact h.length_memory

theorem WellFormed.spares_writeAt (h : c.WellFormed) {at_ : Nat} {bytes : Bytes}
    (hfit : c.used + at_ + bytes.length ≤ capacity) : c.Spares (c.writeAt at_ bytes) := by
  refine ⟨rfl, fun _ => rfl, fun _ => ?_⟩
  have hoffset : c.used + at_ ≤ c.memory.length := by
    rw [h.length_memory]
    omega
  exact Bytes.take_overwrite bytes (Nat.le_add_right _ _) hoffset

end Changes

end SendChunk

namespace SendPool

/-! ## Chunks by number -/

def WellFormed (p : SendPool) : Prop :=
  ∀ (i : Nat) (c : SendChunk), p.chunks[i]? = some c → c.WellFormed

/-- How many buffers refer to a chunk, none if it was never created. -/
def refs (p : SendPool) (chunk : Nat) : Nat := (p.chunks[chunk]?).elim 0 SendChunk.refs

/-- The buffers of all chunks are left alone. -/
structure Spares (p p' : SendPool) : Prop where
  chunk_spares : ∀ (i : Nat) (c : SendChunk), p.chunks[i]? = some c →
    ∃ c', p'.chunks[i]? = some c' ∧ c.Spares c'
  refs_eq : ∀ i, p'.refs i = p.refs i

section Chunks

variable {p p' p'' : SendPool} {chunk i : Nat} {c : SendChunk} {f : SendChunk → SendChunk}

theorem lt_created_of_getElem? (h : p.chunks[i]? = some c) : i < p.created :=
  (Array.getElem?_eq_some_iff.mp h).1

theorem exists_of_lt_created (h : i < p.created) : ∃ c, p.chunks[i]? = some c := by
  have hlt : i < p.chunks.size := h
  exact ⟨p.chunks[i], Array.getElem?_eq_getElem hlt⟩

theorem getElem?_modify (p : SendPool) (chunk i : Nat) (f : SendChunk → SendChunk) :
    (p.modify chunk f).chunks[i]? =
      if chunk = i then (p.chunks[i]?).map f else p.chunks[i]? :=
  Array.getElem?_modify

theorem getElem?_modify_self (h : p.chunks[chunk]? = some c) :
    (p.modify chunk f).chunks[chunk]? = some (f c) := by
  rw [getElem?_modify, if_pos rfl, h, Option.map_some]

theorem getElem?_modify_of_ne (h : chunk ≠ i) :
    (p.modify chunk f).chunks[i]? = p.chunks[i]? := by
  rw [getElem?_modify, if_neg h]

@[simp] theorem created_modify (p : SendPool) (chunk : Nat) (f : SendChunk → SendChunk) :
    (p.modify chunk f).created = p.created :=
  Array.size_modify

theorem WellFormed.modify (h : p.WellFormed) (hc : p.chunks[chunk]? = some c)
    (hf : (f c).WellFormed) : (p.modify chunk f).WellFormed := by
  intro i c' hc'
  by_cases hi : chunk = i
  · subst hi
    rw [getElem?_modify_self hc] at hc'
    obtain rfl := Option.some.inj hc'
    exact hf
  · rw [getElem?_modify_of_ne hi] at hc'
    exact h i c' hc'

theorem refs_of_getElem? (h : p.chunks[chunk]? = some c) : p.refs chunk = c.refs := by
  rw [refs, h]
  rfl

theorem refs_modify_self (h : p.chunks[chunk]? = some c) :
    (p.modify chunk f).refs chunk = (f c).refs :=
  refs_of_getElem? (getElem?_modify_self h)

theorem refs_modify_of_ne (h : chunk ≠ i) : (p.modify chunk f).refs i = p.refs i := by
  rw [refs, getElem?_modify_of_ne h]
  rfl

theorem spares_modify (hc : p.chunks[chunk]? = some c) (hspares : c.Spares (f c)) :
    p.Spares (p.modify chunk f) := by
  refine ⟨fun i old hold => ?_, fun i => ?_⟩
  · by_cases hi : chunk = i
    · subst hi
      obtain rfl := Option.some.inj (hc.symm.trans hold)
      exact ⟨f c, getElem?_modify_self hc, hspares⟩
    · rw [getElem?_modify_of_ne hi]
      exact ⟨old, hold, .refl old⟩
  · by_cases hi : chunk = i
    · subst hi
      rw [refs_modify_self hc, hspares.refs_eq, refs_of_getElem? hc]
    · exact refs_modify_of_ne hi

theorem spares_of_chunks_eq (h : p'.chunks = p.chunks) : p.Spares p' := by
  refine ⟨fun i c hc => ?_, fun i => ?_⟩
  · rw [h]
    exact ⟨c, hc, .refl c⟩
  · rw [refs, refs, h]

theorem Spares.trans (h : p.Spares p') (h' : p'.Spares p'') : p.Spares p'' := by
  refine ⟨fun i c hc => ?_, fun i => (h'.refs_eq i).trans (h.refs_eq i)⟩
  obtain ⟨c', hc', hspares⟩ := h.chunk_spares i c hc
  obtain ⟨c'', hc'', hspares'⟩ := h'.chunk_spares i c' hc'
  exact ⟨c'', hc'', hspares.trans hspares'⟩

theorem Spares.created_le (h : p.Spares p') : p.created ≤ p'.created := by
  refine Nat.le_of_not_lt fun hlt => ?_
  obtain ⟨c, hc⟩ := exists_of_lt_created hlt
  obtain ⟨c', hc', -⟩ := h.chunk_spares _ c hc
  exact Nat.lt_irrefl _ (lt_created_of_getElem? hc')

end Chunks

/-! ## Taking a chunk out of the pool -/

/-- The chunk at the place goes, and the others stay. -/
theorem takeAt_perm {place chunk : Nat} {waiting : List Nat} (h : waiting[place]? = some chunk) :
    (chunk :: takeAt place waiting).Perm waiting := by
  rcases List.eq_nil_or_concat waiting with rfl | ⟨init, last, rfl⟩
  · cases h
  rw [List.concat_eq_append] at h ⊢
  rw [takeAt, List.getLast?_concat]
  dsimp only
  rw [List.length_append, List.length_singleton]
  split
  next hlast =>
      obtain rfl : place = init.length := Nat.succ.inj hlast
      rw [List.getElem?_concat_length] at h
      obtain rfl := Option.some.inj h
      rw [List.dropLast_concat]
      exact (List.perm_append_singleton last init).symm
  next hinner =>
      obtain ⟨hlt, -⟩ := List.getElem?_eq_some_iff.mp h
      rw [List.length_append, List.length_singleton] at hlt
      have hlt : place < init.length := by omega
      rw [List.getElem?_append_left hlt, List.getElem?_eq_getElem hlt] at h
      obtain rfl := Option.some.inj h
      have hinit : init.take place ++ init[place] :: init.drop (place + 1) = init := by
        rw [List.getElem_cons_drop, List.take_append_drop]
      have hgone : (last :: (init.take place ++ init.drop (place + 1))).Perm
          (init.take place ++ last :: init.drop (place + 1)) := List.perm_middle.symm
      have hthere : (init[place] :: (init.take place ++ init.drop (place + 1))).Perm init := by
        have hmiddle : (init.take place ++ init[place] :: init.drop (place + 1)).Perm
            (init[place] :: (init.take place ++ init.drop (place + 1))) := List.perm_middle
        rw [hinit] at hmiddle
        exact hmiddle.symm
      rw [List.set_append_left _ _ hlt, List.dropLast_concat, List.set_eq_take_append_cons_drop,
        if_pos hlt]
      exact (hgone.symm.cons _).trans ((List.Perm.swap _ _ _).trans ((hthere.cons last).trans
        (List.perm_append_singleton last init).symm))

/-- What handing out a chunk of which all bytes are free does to the pool. -/
structure Popped (p : SendPool) (chunk : Nat) (p' : SendPool) : Prop where
  wellFormed : p'.WellFormed
  spares : p.Spares p'
  others : ∀ i c, i ≠ chunk → p.chunks[i]? = some c → p'.chunks[i]? = some c
  owners : (chunk :: p'.waiting).Subperm (p.created :: p.waiting)
  waiting_subset : p'.waiting ⊆ p.waiting
  unused : ∃ c, p'.chunks[chunk]? = some c ∧ c.used = 0

/-- The chunk that is found may be written again. -/
theorem isReusable_of_lastReusable? {p : SendPool} {place chunk : Nat}
    (h : p.lastReusable? = some place) (hchunk : p.waiting[place]? = some chunk) :
    ∃ c, p.chunks[chunk]? = some c ∧ c.reusable = true := by
  rw [lastReusable?] at h
  obtain ⟨back, hback, rfl⟩ := Option.map_eq_some_iff.mp h
  obtain ⟨hlt, hreusable, -⟩ := List.findIdx?_eq_some_iff_getElem.mp hback
  rw [List.getElem_reverse] at hreusable
  obtain ⟨-, rfl⟩ := List.getElem?_eq_some_iff.mp hchunk
  rw [isReusable, Option.any_eq_true] at hreusable
  exact hreusable

theorem pop_popped {p : SendPool} (h : p.WellFormed) : p.Popped p.pop.1 p.pop.2 := by
  rw [pop]
  split
  next place chunk hfound =>
      -- a waiting chunk is rewound
      obtain ⟨place', hplace, hat⟩ := Option.bind_eq_some_iff.mp hfound
      obtain ⟨chunk', hchunk, heq⟩ := Option.map_eq_some_iff.mp hat
      cases heq
      obtain ⟨c, hc, hreusable⟩ := isReusable_of_lastReusable? hplace hchunk
      have hperm := takeAt_perm hchunk
      refine ⟨?_, ?_, ?_, ?_, ?_, c.rewind, getElem?_modify_self hc, rfl⟩
      · exact WellFormed.modify h hc (h chunk c hc).rewind
      · exact (spares_modify hc (SendChunk.spares_rewind hreusable)).trans (spares_of_chunks_eq rfl)
      · intro i other hi hother
        exact (getElem?_modify_of_ne hi.symm).trans hother
      · exact hperm.subperm.trans (List.sublist_cons_self _ _).subperm
      · exact fun i hi => hperm.subset (List.mem_cons_of_mem _ hi)
  next =>
      -- a new chunk is appended
      have hold : ∀ (i : Nat) (c : SendChunk), p.chunks[i]? = some c →
          (p.chunks.push SendChunk.new)[i]? = some c := by
        intro i c hc
        have hlt := lt_created_of_getElem? hc
        rw [Array.getElem?_push_lt hlt]
        exact (Array.getElem?_eq_getElem hlt).symm.trans hc
      refine ⟨?_, ⟨?_, ?_⟩, fun i other _ hother => hold i other hother, ?_, ?_, SendChunk.new, ?_,
        rfl⟩
      · intro i c hc
        rw [Array.getElem?_push] at hc
        split at hc
        · cases hc
          exact SendChunk.wellFormed_new
        · exact h i c hc
      · intro i c hc
        exact ⟨c, hold i c hc, .refl c⟩
      · intro i
        rw [refs, Array.getElem?_push]
        split
        next hi =>
            rw [refs, hi, Array.getElem?_size]
            rfl
        next => rfl
      · exact List.Subperm.refl _
      · exact List.Subset.refl _
      · exact Array.getElem?_push_size

/-! ## Letting a chunk wait -/

theorem chunks_push (chunk : Nat) (p : SendPool) : (p.push chunk).chunks = p.chunks := by
  rw [push]
  split <;> rfl

theorem waiting_push_subperm (chunk : Nat) (p : SendPool) :
    (p.push chunk).waiting.Subperm (chunk :: p.waiting) := by
  rw [push]
  split
  · exact (List.perm_append_singleton chunk p.waiting).subperm
  · exact (List.sublist_cons_self _ _).subperm

end SendPool

namespace SendContext

theorem chunks_drop (p : SendPool) (cx : SendContext) : (cx.drop p).chunks = p.chunks := by
  rw [drop]
  split
  · exact SendPool.chunks_push _ _
  · rfl

theorem created_drop (p : SendPool) (cx : SendContext) : (cx.drop p).created = p.created :=
  congrArg Array.size (chunks_drop p cx)

/-! ## Opening a region -/

/-- What opening a region of some size does to the pool. -/
structure Opened (size : Nat) (p : SendPool) (cx : SendContext) (chunk : Nat) (p' : SendPool) :
    Prop where
  wellFormed : p'.WellFormed
  spares : p.Spares p'
  others : ∀ i c, i ≠ chunk → p.chunks[i]? = some c → p'.chunks[i]? = some c
  owners : (chunk :: p'.waiting).Subperm (p.created :: (cx.current.toList ++ p.waiting))
  waiting_subset : p'.waiting ⊆ cx.current.toList ++ p.waiting
  room : ∃ c, p'.chunks[chunk]? = some c ∧ c.used + size ≤ SendChunk.capacity

theorem supply_opened {size : Nat} (hsize : size ≤ SendChunk.capacity) {p : SendPool}
    {cx : SendContext} (h : p.WellFormed) (hcurrent : ∀ chunk ∈ cx.current, chunk < p.created) :
    cx.Opened size p (cx.supply size p).1 (cx.supply size p).2 := by
  rw [supply]
  cases hcx : cx.current with
  | none =>
      obtain ⟨hwf, hspares, hothers, howners, hwaiting, c, hc, hunused⟩ := SendPool.pop_popped h
      refine ⟨hwf, hspares, hothers, ?_, ?_, c, hc, ?_⟩
      · rw [hcx]
        exact howners
      · rw [hcx]
        exact hwaiting
      · rw [hunused, Nat.zero_add]
        exact hsize
  | some chunk =>
      obtain ⟨c, hc⟩ := SendPool.exists_of_lt_created (hcurrent chunk hcx)
      have hfree : cx.free p = SendChunk.capacity - c.used := by
        rw [free, hcx, Option.bind_some, hc]
        rfl
      dsimp only
      split
      next hroom =>
          have hused := (h chunk c hc).used_le
          refine ⟨h, SendPool.spares_of_chunks_eq rfl, fun _ _ _ hother => hother, ?_, ?_, c, hc,
            by omega⟩
          · rw [hcx]
            exact (List.sublist_cons_self _ _).subperm
          · exact List.subset_append_right _ _
      next =>
          have hpushed : (p.push chunk).WellFormed := by
            intro i c hc
            rw [SendPool.chunks_push] at hc
            exact h i c hc
          have hcreated : (p.push chunk).created = p.created :=
            congrArg Array.size (SendPool.chunks_push chunk p)
          have hperm := SendPool.waiting_push_subperm chunk p
          obtain ⟨hwf, hspares, hothers, howners, hwaiting, c, hc, hunused⟩ :=
            SendPool.pop_popped hpushed
          rw [SendPool.chunks_push] at hothers
          refine ⟨hwf, ?_, hothers, ?_, ?_, c, hc, ?_⟩
          · exact (SendPool.spares_of_chunks_eq (SendPool.chunks_push chunk p)).trans hspares
          · rw [hcreated] at howners
            rw [hcx]
            exact howners.trans ((List.subperm_cons _).mpr hperm)
          · rw [hcx]
            exact fun i hi => hperm.subset (hwaiting hi)
          · rw [hunused, Nat.zero_add]
            exact hsize

theorem open?_opened {size : Nat} {p p' : SendPool} {cx : SendContext} {chunk : Nat}
    (h : p.WellFormed) (hcurrent : ∀ chunk ∈ cx.current, chunk < p.created)
    (hopen : cx.open? size p = some (chunk, p')) : cx.Opened size p chunk p' := by
  rw [open?] at hopen
  split at hopen
  next hsize =>
      obtain ⟨rfl, rfl⟩ := Prod.mk.inj (Option.some.inj hopen)
      obtain ⟨hwf, hspares, hothers, howners, hwaiting, c, hc, hroom⟩ :=
        supply_opened hsize h hcurrent
      have hzeros : c.used + 0 + (List.replicate size (0 : UInt8)).length ≤ SendChunk.capacity := by
        rw [List.length_replicate, Nat.add_zero]
        exact hroom
      refine ⟨?_, ?_, ?_, howners, hwaiting, c.clear size, SendPool.getElem?_modify_self hc, hroom⟩
      · exact hwf.modify hc ((hwf _ c hc).writeAt hzeros)
      · exact hspares.trans (SendPool.spares_modify hc ((hwf _ c hc).spares_writeAt hzeros))
      · intro i other hi hother
        exact (SendPool.getElem?_modify_of_ne hi.symm).trans (hothers i other hi hother)
  next => cases hopen

end SendContext

end SessionEngine

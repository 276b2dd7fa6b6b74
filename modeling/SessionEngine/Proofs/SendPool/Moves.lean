import SessionEngine.Proofs.SendPool.Live

/-!
# What the steps of a context leave alone

Holding and letting go of buffers only recounts the holders
(`SendPool.Recounted`), and the end of a context only lets its chunk wait. A
region is opened in the chunk that the context has or in one that is taken
from the pool, and which of the two follows from the free bytes of the chunk
alone (`SendContext.takes`).

No step of one context changes another one or the bytes of its chunk
(`Writing.LeavesContext`), because nobody else holds that chunk.
-/

namespace SessionEngine

/-! ## Changes of a pool that leave bytes alone -/

namespace SendPool

/-- The chunk keeps its bytes and the place where the next buffer begins. -/
def Leaves (p p' : SendPool) (chunk : Nat) : Prop :=
  ∀ c, p.chunks[chunk]? = some c →
    ∃ c', p'.chunks[chunk]? = some c' ∧ c'.used = c.used ∧ c'.memory = c.memory

/-- At most the holders of buffers are other ones. -/
structure Recounted (p p' : SendPool) : Prop where
  waiting_eq : p'.waiting = p.waiting
  created_eq : p'.created = p.created
  leaves : ∀ chunk, p.Leaves p' chunk

section Leaving

variable {p p' p'' : SendPool} {chunk i : Nat}

theorem leaves_of_chunks_eq (h : p'.chunks = p.chunks) (i : Nat) : p.Leaves p' i := by
  intro c hc
  rw [h]
  exact ⟨c, hc, rfl, rfl⟩

theorem leaves_of_getElem?_eq (h : p'.chunks[i]? = p.chunks[i]?) : p.Leaves p' i := by
  intro c hc
  rw [h]
  exact ⟨c, hc, rfl, rfl⟩

theorem Recounted.refl (p : SendPool) : p.Recounted p :=
  ⟨rfl, rfl, fun i => leaves_of_chunks_eq rfl i⟩

theorem Recounted.trans (h : p.Recounted p') (h' : p'.Recounted p'') : p.Recounted p'' := by
  refine ⟨h'.waiting_eq.trans h.waiting_eq, h'.created_eq.trans h.created_eq, fun i c hc => ?_⟩
  obtain ⟨c', hc', hused, hmemory⟩ := h.leaves i c hc
  obtain ⟨c'', hc'', hused', hmemory'⟩ := h'.leaves i c' hc'
  exact ⟨c'', hc'', hused'.trans hused, hmemory'.trans hmemory⟩

theorem recounted_modify (p : SendPool) (chunk : Nat) (f : Nat → Nat) :
    p.Recounted (p.modify chunk fun c => { c with refs := f c.refs }) := by
  refine ⟨rfl, created_modify _ _ _, fun i c hc => ?_⟩
  by_cases hi : chunk = i
  · subst hi
    exact ⟨_, getElem?_modify_self hc, rfl, rfl⟩
  · exact ⟨c, (getElem?_modify_of_ne hi).trans hc, rfl, rfl⟩

theorem recounted_retain (p : SendPool) (b : SendBuffer) : p.Recounted (p.retain b) := by
  cases b with
  | own bytes => exact .refl p
  | range chunk offset length => exact recounted_modify p chunk (· + 1)

theorem recounted_drop (p : SendPool) (b : SendBuffer) : p.Recounted (p.drop b) := by
  cases b with
  | own bytes => exact .refl p
  | range chunk offset length => exact recounted_modify p chunk (· - 1)

end Leaving

end SendPool

namespace Sending

theorem recounted_dropBuffer (s : Sending) (name : String) :
    s.pool.Recounted (s.dropBuffer name).pool ∧ (s.dropBuffer name).contexts = s.contexts := by
  rw [dropBuffer]
  split
  · exact ⟨SendPool.recounted_drop _ _, rfl⟩
  · exact ⟨.refl _, rfl⟩

theorem recounted_keep (s : Sending) (name : String) (b : SendBuffer) :
    s.pool.Recounted (s.keep name b).pool ∧ (s.keep name b).contexts = s.contexts :=
  s.recounted_dropBuffer name

section Ending

variable {s : Sending} {name other : String}

theorem dropContext_of_get? {cx : SendContext} (hcx : s.contexts.get? name = some cx) :
    s.dropContext name =
      { s with pool := cx.drop s.pool, contexts := s.contexts.erase name } := by
  rw [dropContext, hcx]

theorem dropContext_of_get?_eq_none (hcx : s.contexts.get? name = none) :
    s.dropContext name = s := by
  rw [dropContext, hcx]

theorem chunks_dropContext (s : Sending) (name : String) :
    (s.dropContext name).pool.chunks = s.pool.chunks := by
  cases hcx : s.contexts.get? name with
  | none => rw [dropContext_of_get?_eq_none hcx]
  | some cx =>
      rw [dropContext_of_get? hcx]
      exact SendContext.chunks_drop s.pool cx

theorem get?_dropContext_self : (s.dropContext name).contexts.get? name = none := by
  cases hcx : s.contexts.get? name with
  | none =>
      rw [dropContext_of_get?_eq_none hcx]
      exact hcx
  | some cx =>
      rw [dropContext_of_get? hcx]
      exact (Table.get?_erase _ _ _).trans (if_pos rfl)

theorem get?_dropContext_of_ne (h : other ≠ name) :
    (s.dropContext name).contexts.get? other = s.contexts.get? other := by
  cases hcx : s.contexts.get? name with
  | none => rw [dropContext_of_get?_eq_none hcx]
  | some cx =>
      rw [dropContext_of_get? hcx]
      exact (Table.get?_erase _ _ _).trans (if_neg h)

end Ending

end Sending

/-! ## Chunks that are kept and chunks that are taken -/

namespace SendContext

/-- Whether a context takes a chunk from the pool for a region of this size: it
holds none, or too little of it is free. -/
def takes (size : Nat) (p : SendPool) (cx : SendContext) : Bool :=
  cx.current.isNone || decide (cx.free p < size)

variable {p : SendPool} {cx : SendContext} {size : Nat}

/-- The chunk that the context held is given back before. -/
theorem supply_of_takes (h : cx.takes size p = true) : cx.supply size p = (cx.drop p).pop := by
  rw [supply, drop]
  cases hcx : cx.current with
  | none => rfl
  | some chunk =>
      rw [takes, hcx, Option.isNone_some, Bool.false_or, decide_eq_true_eq] at h
      dsimp only
      rw [if_neg (by omega)]

theorem supply_of_not_takes (h : cx.takes size p = false) :
    ∃ chunk, cx.current = some chunk ∧ size ≤ cx.free p ∧ cx.supply size p = (chunk, p) := by
  rw [takes, Bool.or_eq_false_iff, decide_eq_false_iff_not, Nat.not_lt] at h
  obtain ⟨hsome, hroom⟩ := h
  cases hcx : cx.current with
  | none =>
      rw [hcx] at hsome
      cases hsome
  | some chunk =>
      refine ⟨chunk, rfl, hroom, ?_⟩
      rw [supply, hcx]
      dsimp only
      rw [if_pos hroom]

theorem free_of_getElem? {chunk : Nat} {c : SendChunk} (hc : p.chunks[chunk]? = some c) :
    free p ⟨some chunk⟩ = SendChunk.capacity - c.used := by
  rw [free, Option.bind_some, hc]
  rfl

theorem wellFormed_drop (cx : SendContext) (h : p.WellFormed) : (cx.drop p).WellFormed := by
  intro i c hc
  rw [chunks_drop] at hc
  exact h i c hc

theorem takes_eq_false_iff :
    cx.takes size p = false ↔ cx.current.isSome = true ∧ size ≤ cx.free p := by
  rw [takes, Bool.or_eq_false_iff, decide_eq_false_iff_not, Nat.not_lt, Option.isNone_eq_false_iff]

/-- The chunk that was taken has all of its bytes free. -/
theorem unused_of_takes (h : p.WellFormed) (htakes : cx.takes size p = true) :
    ∃ c, (cx.supply size p).2.chunks[(cx.supply size p).1]? = some c ∧ c.WellFormed ∧
      c.used = 0 := by
  rw [supply_of_takes htakes]
  have hpopped := SendPool.pop_popped (wellFormed_drop cx h)
  obtain ⟨c, hc, hunused⟩ := hpopped.unused
  exact ⟨c, hc, hpopped.wellFormed _ c hc, hunused⟩

end SendContext

namespace Writing

/-! ## Steps of one context -/

/-- A step leaves a context and its chunk alone. -/
structure LeavesContext (w w' : Writing) (name : String) : Prop where
  contexts_eq : w'.sending.contexts.get? name = w.sending.contexts.get? name
  regions_eq : w'.regions name = w.regions name
  leaves : ∀ chunk, w.sending.contexts.get? name = some ⟨some chunk⟩ →
    w.sending.pool.Leaves w'.sending.pool chunk

section Steps

variable {w w' : Writing} {name other : String} {cx : SendContext} {chunk size : Nat}

theorem opened?_of_get? (hcx : w.sending.contexts.get? name = some ⟨some chunk⟩) :
    w.opened? name = (w.regions name).map (chunk, ·) := by
  rw [opened?, hcx]
  cases w.regions name <;> rfl

theorem step_openRegion (hcx : w.sending.contexts.get? name = some cx)
    (hregion : w.regions name = none) (hsize : size ≤ SendChunk.capacity) :
    w.step (.openRegion name size) =
      { w with
        sending := { w.sending with
          pool := (cx.supply size w.sending.pool).2.modify (cx.supply size w.sending.pool).1
            (SendChunk.clear size)
          contexts := w.sending.contexts.insert name ⟨some (cx.supply size w.sending.pool).1⟩ }
        regions := Function.update w.regions name (some size) } := by
  rw [step, hregion, hcx, Option.bind_some, SendContext.open?, if_pos hsize]
  rfl

theorem step_openRegion_of_isSome (hregion : (w.regions name).isSome = true) (size : Nat) :
    w.step (.openRegion name size) = w := by
  rw [step, if_neg (by rw [Option.isNone_iff_eq_none]; exact Option.isSome_iff_ne_none.mp hregion)]

theorem step_openRegion_of_get?_eq_none (hcx : w.sending.contexts.get? name = none) (size : Nat) :
    w.step (.openRegion name size) = w := by
  rw [step, hcx]
  split <;> rfl

/-- Nothing changes where a region would not fit into a chunk. -/
theorem step_openRegion_of_capacity_lt (hsize : SendChunk.capacity < size) (name : String) :
    w.step (.openRegion name size) = w := by
  have hrefused : (w.sending.contexts.get? name).bind
      (SendContext.open? size w.sending.pool) = none := by
    cases w.sending.contexts.get? name with
    | none => rfl
    | some cx => rw [Option.bind_some, SendContext.open?, if_neg (Nat.not_le.mpr hsize)]
  rw [step, hrefused]
  split <;> rfl

theorem LeavesContext.refl (w : Writing) (name : String) : w.LeavesContext w name :=
  ⟨rfl, rfl, fun chunk _ => SendPool.leaves_of_chunks_eq rfl chunk⟩

/-- The chunk that one context holds is no other's. -/
theorem Sound.leavesContext_modify (h : w.Sound)
    (hcx : w.sending.contexts.get? name = some ⟨some chunk⟩) (hother : other ≠ name)
    {f : SendChunk → SendChunk} (hpool : w'.sending.pool = w.sending.pool.modify chunk f)
    (hcontexts : w'.sending.contexts = w.sending.contexts)
    (hregions : w'.regions other = w.regions other) : w.LeavesContext w' other := by
  refine ⟨by rw [hcontexts], hregions, fun i hi => SendPool.leaves_of_getElem?_eq ?_⟩
  have hne : chunk ≠ i := by
    rintro rfl
    exact hother (h.room.eq_of_held hcx hi)
  rw [hpool]
  exact SendPool.getElem?_modify_of_ne hne

theorem Sound.leavesContext_openRegion (h : w.Sound) (hother : other ≠ name) (size : Nat) :
    w.LeavesContext (w.step (.openRegion name size)) other := by
  have hafter := (h.step (.openRegion name size)).room
  rw [Writing.step] at hafter ⊢
  split
  next hregion =>
      split
      next chunk pool hopen =>
          rw [if_pos hregion, hopen] at hafter
          obtain ⟨cx, hcx, hopen⟩ := Option.bind_eq_some_iff.mp hopen
          have hcurrent := h.room.current_lt_created hcx
          have hopened := SendContext.open?_opened h.room.chunks hcurrent hopen
          have hsame : (w.sending.contexts.insert name ⟨some chunk⟩).get? other =
              w.sending.contexts.get? other := Table.get?_insert_of_ne hother _ _
          refine ⟨hsame, Function.update_of_ne hother _ _, fun i hi c hc => ?_⟩
          have hne : i ≠ chunk := by
            rintro rfl
            exact hother (hafter.eq_of_held (Table.get?_insert_self _ _ _) (hsame.trans hi))
          exact ⟨c, hopened.others i c hne hc, rfl, rfl⟩
      next => exact .refl w other
  next => exact .refl w other

/-- Bytes are cut off the chunk of a context, and nobody holds them yet. -/
def cutOff (name : String) (chunk length : Nat) (w : Writing) : Writing :=
  { w with
    sending := { w.sending with pool := w.sending.pool.modify chunk (SendChunk.cut length) }
    regions := Function.update w.regions name none
    cuts := w.cuts + 1 }

theorem step_close {c : SendChunk} (hopened : w.opened? name = some (chunk, size))
    (hc : w.sending.pool.chunks[chunk]? = some c) (length : Nat) (buffer : String) :
    ∃ o, w.step (.close name length buffer) =
      (w.cutOff name chunk (min length size)).keep buffer
        (.range chunk c.used (min length size)) o := by
  rw [step, hopened]
  dsimp only
  rw [SendContext.close, hc]
  exact ⟨_, rfl⟩

end Steps

end Writing

end SessionEngine

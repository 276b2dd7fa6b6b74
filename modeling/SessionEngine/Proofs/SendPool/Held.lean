import SessionEngine.Proofs.SendPool.Chunks
import SessionEngine.Proofs.Table

/-!
# Buffers that are held

A buffer is *placed* if it lies among the bytes of its chunk that belong to
buffers, and it *stays* under a change that leaves those bytes alone
(`SendBuffer.stays_of_keeps`). The holders of buffers are counted by chunk
(`SendPool.Counts`), so a buffer that is held keeps its chunk from being
rewound, and stays when chunks are only spared (`SendPool.Counts.stays`).

What holds of all buffers that are held is `SendPool.Intact`: each is placed
and reads as the bytes it was cut off with, and any two of them are either
copies of each other or have no byte in common. Copies are told by the number
of the cut they come from.
-/

namespace SessionEngine

/-! ## Chunks that keep their bytes -/

namespace SendChunk

/-- A change leaves alone the bytes that belong to buffers, and gives none of
them back. -/
structure Keeps (c c' : SendChunk) : Prop where
  used_le : c.used ≤ c'.used
  memory_eq : c'.memory.take c.used = c.memory.take c.used

theorem Spares.keeps {c c' : SendChunk} (h : c.Spares c') (hrefs : c.refs ≠ 0) : c.Keeps c' :=
  ⟨Nat.le_of_eq (h.used_eq hrefs).symm, h.memory_eq hrefs⟩

theorem keeps_of_refs (c : SendChunk) (refs : Nat) : c.Keeps { c with refs } :=
  ⟨Nat.le_refl _, rfl⟩

theorem WellFormed.recount {c : SendChunk} (h : c.WellFormed) (refs : Nat) :
    { c with refs }.WellFormed :=
  ⟨h.length_memory, h.used_le⟩

def cut (length : Nat) (c : SendChunk) : SendChunk :=
  { c with used := c.used + length, refs := c.refs + 1 }

theorem keeps_cut (length : Nat) (c : SendChunk) : c.Keeps (c.cut length) :=
  ⟨Nat.le_add_right _ _, rfl⟩

end SendChunk

/-! ## Buffers -/

namespace SendBuffer

def refersTo (chunk : Nat) : SendBuffer → Bool
  | .range other _ _ => other = chunk
  | .own _ => false

/-- A buffer takes up this byte of this chunk. -/
def Covers (chunk place : Nat) : SendBuffer → Prop
  | .range other offset length => other = chunk ∧ offset ≤ place ∧ place < offset + length
  | .own _ => False

/-- No byte of a chunk belongs to both. -/
def Apart (b b' : SendBuffer) : Prop :=
  ∀ chunk place : Nat, b.Covers chunk place → ¬ b'.Covers chunk place

theorem Apart.symm {b b' : SendBuffer} (h : b.Apart b') : b'.Apart b :=
  fun chunk place hb' hb => h chunk place hb hb'

/-- A buffer lies among the bytes of its chunk that belong to buffers. -/
def Placed (p : SendPool) : SendBuffer → Prop
  | .range chunk offset length => ∃ c, p.chunks[chunk]? = some c ∧ offset + length ≤ c.used
  | .own _ => True

/-- A placed buffer is placed after the change and reads as before. -/
def Stays (p p' : SendPool) (b : SendBuffer) : Prop :=
  b.Placed p → b.Placed p' ∧ p'.read b = p.read b

theorem stays_of_keeps {p p' : SendPool} {b : SendBuffer}
    (h : ∀ chunk, b.refersTo chunk = true → ∀ c, p.chunks[chunk]? = some c →
      ∃ c', p'.chunks[chunk]? = some c' ∧ c.Keeps c') : b.Stays p p' := by
  intro hplaced
  cases b with
  | own bytes => exact ⟨trivial, rfl⟩
  | range chunk offset length =>
      obtain ⟨c, hc, hle⟩ := hplaced
      obtain ⟨c', hc', hkeeps⟩ := h chunk (decide_eq_true rfl) c hc
      refine ⟨⟨c', hc', Nat.le_trans hle hkeeps.used_le⟩, ?_⟩
      have hlength : min length (c.used - offset) = length := Nat.min_eq_left (by omega)
      have hbytes : ∀ memory : Bytes, (memory.drop offset).take length =
          ((memory.take c.used).drop offset).take length := by
        intro memory
        rw [List.drop_take, List.take_take, hlength]
      rw [SendPool.read, SendPool.read, hc, hc']
      dsimp only
      rw [hbytes c'.memory, hbytes c.memory, hkeeps.memory_eq]

/-- The bytes behind those that belong to buffers are no buffer's. -/
theorem Placed.apart_free {p : SendPool} {b : SendBuffer} (h : b.Placed p) {chunk : Nat}
    {c : SendChunk} (hc : p.chunks[chunk]? = some c) (length : Nat) :
    b.Apart (.range chunk c.used length) := by
  rintro other place hb ⟨rfl, hused, -⟩
  cases b with
  | own bytes => exact hb
  | range there offset size =>
      obtain ⟨rfl, -, hlt⟩ := hb
      obtain ⟨old, hold, hle⟩ := h
      obtain rfl := Option.some.inj (hold.symm.trans hc)
      omega

end SendBuffer

namespace SendPool

section Changes

variable {p : SendPool} {chunk : Nat} {f : SendChunk → SendChunk}

theorem stays_modify (hf : ∀ c : SendChunk, c.Keeps (f c)) (b : SendBuffer) :
    b.Stays p (p.modify chunk f) := by
  refine SendBuffer.stays_of_keeps fun i _ c hc => ?_
  by_cases hi : chunk = i
  · subst hi
    exact ⟨f c, getElem?_modify_self hc, hf c⟩
  · rw [getElem?_modify_of_ne hi]
    exact ⟨c, hc, Nat.le_refl _, rfl⟩

end Changes

/-! ## Counting the holders -/

/-- Every chunk knows how many of the buffers refer to it. -/
def Counts (p : SendPool) (held : List SendBuffer) : Prop :=
  ∀ i, p.refs i = held.countP (SendBuffer.refersTo i)

section Counting

variable {p p' : SendPool} {held held' : List SendBuffer} {b : SendBuffer}

theorem Counts.perm (h : p.Counts held) (hperm : held.Perm held') : p.Counts held' :=
  fun i => (h i).trans (hperm.countP_eq _)

theorem Counts.spares (h : p.Counts held) (hspares : p.Spares p') : p'.Counts held :=
  fun i => (hspares.refs_eq i).trans (h i)

/-- A chunk with buffers that are held is not rewound. -/
theorem Counts.refs_ne_zero (h : p.Counts held) (hb : b ∈ held) {chunk : Nat}
    (hrefers : b.refersTo chunk = true) : p.refs chunk ≠ 0 := by
  rw [h chunk]
  exact Nat.ne_of_gt (List.countP_pos_iff.mpr ⟨b, hb, hrefers⟩)

theorem Counts.stays (h : p.Counts held) (hb : b ∈ held) (hspares : p.Spares p') :
    b.Stays p p' := by
  refine SendBuffer.stays_of_keeps fun chunk hrefers c hc => ?_
  have hrefs := h.refs_ne_zero hb hrefers
  rw [refs_of_getElem? hc] at hrefs
  obtain ⟨c', hc', hspared⟩ := hspares.chunk_spares chunk c hc
  exact ⟨c', hc', hspared.keeps hrefs⟩

theorem countP_range (i chunk offset length : Nat) (held : List SendBuffer) :
    (SendBuffer.range chunk offset length :: held).countP (SendBuffer.refersTo i) =
      held.countP (SendBuffer.refersTo i) + if chunk = i then 1 else 0 := by
  rw [List.countP_cons, SendBuffer.refersTo]
  simp only [decide_eq_true_eq]

/-- A change of one chunk that adds a holder of it. -/
theorem Counts.modify_succ (h : p.Counts held) {chunk offset length : Nat} {c : SendChunk}
    {f : SendChunk → SendChunk} (hc : p.chunks[chunk]? = some c) (hf : (f c).refs = c.refs + 1) :
    (p.modify chunk f).Counts (.range chunk offset length :: held) := by
  intro i
  rw [countP_range, ← h i]
  by_cases hi : chunk = i
  · subst hi
    rw [refs_modify_self hc, hf, refs_of_getElem? hc, if_pos rfl]
  · rw [refs_modify_of_ne hi, if_neg hi, Nat.add_zero]

theorem Counts.retain (h : p.Counts held) (hplaced : b.Placed p) :
    (p.retain b).Counts (b :: held) := by
  cases b with
  | own bytes => exact h
  | range chunk offset length =>
      obtain ⟨c, hc, -⟩ := hplaced
      exact h.modify_succ hc rfl

theorem Counts.drop (h : p.Counts (b :: held)) : (p.drop b).Counts held := by
  cases b with
  | own bytes => exact h
  | range chunk offset length =>
      intro i
      have hbefore := h i
      rw [countP_range] at hbefore
      by_cases hi : chunk = i
      · subst hi
        rw [if_pos rfl] at hbefore
        obtain ⟨c, hc⟩ : ∃ c, p.chunks[chunk]? = some c := by
          cases hc : p.chunks[chunk]? with
          | some c => exact ⟨c, rfl⟩
          | none =>
              rw [refs, hc] at hbefore
              cases hbefore
        rw [refs_of_getElem? hc] at hbefore
        rw [SendPool.drop, refs_modify_self hc]
        exact Nat.sub_eq_of_eq_add hbefore
      · rw [if_neg hi, Nat.add_zero] at hbefore
        rw [SendPool.drop, refs_modify_of_ne hi]
        exact hbefore

theorem stays_retain (p : SendPool) (b b' : SendBuffer) : b'.Stays p (p.retain b) := by
  cases b with
  | own bytes => exact fun hplaced => ⟨hplaced, rfl⟩
  | range chunk offset length => exact stays_modify (fun c => c.keeps_of_refs (c.refs + 1)) b'

theorem stays_drop (p : SendPool) (b b' : SendBuffer) : b'.Stays p (p.drop b) := by
  cases b with
  | own bytes => exact fun hplaced => ⟨hplaced, rfl⟩
  | range chunk offset length => exact stays_modify (fun c => c.keeps_of_refs (c.refs - 1)) b'

end Counting

end SendPool

/-! ## All buffers that are held -/

/-- Where a buffer comes from: how many buffers were made before it, and the
bytes it had then. -/
structure Origin where
  cut : Nat
  bytes : Bytes

namespace SendPool

/-- What holds of the buffers that are held when `cuts` buffers were made. -/
structure Intact (p : SendPool) (cuts : Nat) (Holds : SendBuffer → Origin → Prop) : Prop where
  placed : ∀ b o, Holds b o → b.Placed p
  read_eq : ∀ b o, Holds b o → p.read b = o.bytes
  cut_lt : ∀ b o, Holds b o → o.cut < cuts
  copies : ∀ b o b' o', Holds b o → Holds b' o' → o.cut = o'.cut → b = b'
  apart : ∀ b o b' o', Holds b o → Holds b' o' → o.cut ≠ o'.cut → b.Apart b'

section Holding

variable {p p' : SendPool} {cuts : Nat} {Holds Holds' : SendBuffer → Origin → Prop}

theorem Intact.mono (h : p.Intact cuts Holds) (hless : ∀ b o, Holds' b o → Holds b o) :
    p.Intact cuts Holds' where
  placed b o hb := h.placed b o (hless b o hb)
  read_eq b o hb := h.read_eq b o (hless b o hb)
  cut_lt b o hb := h.cut_lt b o (hless b o hb)
  copies b o b' o' hb hb' := h.copies b o b' o' (hless b o hb) (hless b' o' hb')
  apart b o b' o' hb hb' := h.apart b o b' o' (hless b o hb) (hless b' o' hb')

theorem Intact.stays (h : p.Intact cuts Holds) (hstays : ∀ b o, Holds b o → b.Stays p p') :
    p'.Intact cuts Holds where
  placed b o hb := (hstays b o hb (h.placed b o hb)).1
  read_eq b o hb := (hstays b o hb (h.placed b o hb)).2.trans (h.read_eq b o hb)
  cut_lt := h.cut_lt
  copies := h.copies
  apart := h.apart

/-- A buffer that has no byte in common with those held joins them. -/
theorem Intact.join (h : p.Intact cuts Holds) {b : SendBuffer} (hplaced : b.Placed p)
    (hapart : ∀ b' o', Holds b' o' → b'.Apart b) :
    p.Intact (cuts + 1) fun b' o' => Holds b' o' ∨ (b' = b ∧ o' = ⟨cuts, p.read b⟩) where
  placed := by
    rintro b' o' (hb' | ⟨rfl, rfl⟩)
    · exact h.placed b' o' hb'
    · exact hplaced
  read_eq := by
    rintro b' o' (hb' | ⟨rfl, rfl⟩)
    · exact h.read_eq b' o' hb'
    · rfl
  cut_lt := by
    rintro b' o' (hb' | ⟨rfl, rfl⟩)
    · exact Nat.lt_succ_of_lt (h.cut_lt b' o' hb')
    · exact Nat.lt_succ_self _
  copies := by
    rintro b₁ o₁ b₂ o₂ (h₁ | ⟨rfl, rfl⟩) (h₂ | ⟨rfl, rfl⟩) heq
    · exact h.copies b₁ o₁ b₂ o₂ h₁ h₂ heq
    · exact absurd heq (Nat.ne_of_lt (h.cut_lt b₁ o₁ h₁))
    · exact absurd heq.symm (Nat.ne_of_lt (h.cut_lt b₂ o₂ h₂))
    · rfl
  apart := by
    rintro b₁ o₁ b₂ o₂ (h₁ | ⟨rfl, rfl⟩) (h₂ | ⟨rfl, rfl⟩) hne
    · exact h.apart b₁ o₁ b₂ o₂ h₁ h₂ hne
    · exact hapart b₁ o₁ h₁
    · exact (hapart b₂ o₂ h₂).symm
    · exact absurd rfl hne

end Holding

end SendPool

end SessionEngine

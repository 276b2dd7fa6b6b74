import Mathlib.Logic.Function.Basic
import SessionEngine.Proofs.SendPool.Held

/-!
# No held buffer is ever overwritten

`Writing` is a pool with any number of contexts and buffers, in which the
regions that contexts opened and did not close yet are known too, so that what
one context does can come between the opening and the closing of another. A
run is a list of steps, and a step that is impossible changes nothing.

Besides, each held buffer is remembered with its origin: the bytes it had when
it was cut off. Copies of a buffer share the origin.

`safe_run` says that after every run a chunk is held once, by a context or by
the pool; that held buffers are copies of each other or have no byte in
common; that an open region has no byte in common with a held buffer; and that
every held buffer reads as it did when it was cut off. Two invariants carry
it. `Room` says who owns the chunks and that open regions have room there, and
`Book` what `SendPool.Intact` says of the held buffers; each has one lemma for
a kind of change, and no step needs more than a few of them.
-/

namespace SessionEngine

/-! ## Runs -/

/-- The number of the first byte of a chunk that can be cut off. -/
def SendPool.front (p : SendPool) (chunk : Nat) : Nat := (p.chunks[chunk]?).elim 0 SendChunk.used

/-- The chunks that contexts hold, one entry for each context that holds one. -/
def SendContext.holdings (contexts : Table String SendContext) : List Nat :=
  contexts.filterMap fun entry => entry.2.current

/-- The chunks that contexts hold, and those that wait. -/
def Sending.owned (s : Sending) : List Nat := SendContext.holdings s.contexts ++ s.pool.waiting

/-- Contexts at work. -/
structure Writing where
  sending : Sending
  regions : String → Option Nat
  origins : String → Option Origin
  cuts : Nat

namespace Writing

def empty : Writing := ⟨Sending.empty, fun _ => none, fun _ => none, 0⟩

/-- The region that is open in a context: its chunk and its size. -/
def opened? (name : String) (w : Writing) : Option (Nat × Nat) :=
  (w.regions name).bind fun size =>
    ((w.sending.contexts.get? name).bind SendContext.current).map (·, size)

/-- Keeps a new buffer or a copy under a name. -/
def keep (name : String) (buffer : SendBuffer) (origin : Origin) (w : Writing) : Writing :=
  { w with
    sending := w.sending.keep name buffer
    origins := Function.update w.origins name (some origin) }

inductive Step where
  | context (name : String)
  | dropContext (name : String)
  | openRegion (name : String) (size : Nat)
  /-- Bytes are written somewhere in the open region of a context. -/
  | write (name : String) (offset : Nat) (bytes : Bytes)
  /-- A context closes its region, and the buffer is kept. -/
  | close (name : String) (length : Nat) (buffer : String)
  | abandon (name : String)
  | copy (source buffer : String)
  /-- A buffer with memory of its own is made. -/
  | own (buffer : String) (bytes : Bytes)
  | dropBuffer (buffer : String)

/-- Takes a step. As long as its region is open a context can neither end nor
open another. -/
def step (w : Writing) : Step → Writing
  | .context name =>
      if (w.regions name).isNone then { w with sending := w.sending.context name } else w
  | .dropContext name =>
      if (w.regions name).isNone then { w with sending := w.sending.dropContext name } else w
  | .openRegion name size =>
      if (w.regions name).isNone then
        match (w.sending.contexts.get? name).bind (SendContext.open? size w.sending.pool) with
        | some (chunk, pool) =>
            { w with
              sending := { w.sending with
                pool, contexts := w.sending.contexts.insert name ⟨some chunk⟩ }
              regions := Function.update w.regions name (some size) }
        | none => w
      else w
  | .write name offset bytes =>
      match w.opened? name with
      | some (chunk, size) =>
          if offset + bytes.length ≤ size then
            { w with sending := { w.sending with
                pool := w.sending.pool.modify chunk (SendChunk.writeAt offset bytes) } }
          else w
      | none => w
  | .close name length buffer =>
      match w.opened? name with
      | some (chunk, size) =>
          let (made, pool) := SendContext.close chunk (min length size) w.sending.pool
          { w with
            sending := { w.sending with pool }
            regions := Function.update w.regions name none
            cuts := w.cuts + 1 }.keep buffer made ⟨w.cuts, pool.read made⟩
      | none => w
  | .abandon name => { w with regions := Function.update w.regions name none }
  | .copy source buffer =>
      match w.sending.buffers.get? source, w.origins source with
      | some held, some origin =>
          { w with sending := { w.sending with pool := w.sending.pool.retain held } }.keep
            buffer held origin
      | _, _ => w
  | .own buffer bytes =>
      { w with cuts := w.cuts + 1 }.keep buffer (.own bytes) ⟨w.cuts, bytes⟩
  | .dropBuffer buffer =>
      { w with
        sending := w.sending.dropBuffer buffer
        origins := Function.update w.origins buffer none }

def run (w : Writing) (steps : List Step) : Writing := steps.foldl step w

/-- Writing a whole buffer is opening, writing and closing. -/
theorem run_put? {w : Writing} {s : Sending} {name buffer : String} {size length : Nat}
    {bytes : Bytes} (hregion : w.regions name = none) (hbytes : bytes.length ≤ size)
    (hput : w.sending.put? name size bytes length buffer = some s) :
    (w.run [.openRegion name size, .write name 0 bytes, .close name length buffer]).sending =
      s := by
  rw [Sending.put?] at hput
  split at hput
  next made pool context hmade =>
      obtain ⟨cx, hcx, hmade⟩ := Option.bind_eq_some_iff.mp hmade
      rw [SendContext.put?] at hmade
      split at hmade
      · cases hmade
      next chunk opened hopen =>
          have hfit : 0 + bytes.length ≤ size := by omega
          cases hmade
          cases hput
          simp only [run, List.foldl_cons, List.foldl_nil, step, hregion, hcx, hopen, opened?,
            Option.isNone_none, if_true, Option.bind_some, Function.update_self,
            Table.get?_insert_self, Option.map_some, if_pos hfit, keep]
          rfl
  next => cases hput

/-- A buffer with its origin is held. -/
def Holds (w : Writing) (b : SendBuffer) (o : Origin) : Prop :=
  ∃ name, w.sending.buffers.get? name = some b ∧ w.origins name = some o

/-- Nothing that is held was overwritten or can be. -/
structure Safe (w : Writing) : Prop where
  /-- No chunk is held by two contexts, waits at two places or does both. -/
  owned : w.sending.owned.Nodup
  /-- Every buffer has the bytes that it was cut off with. -/
  bytes : ∀ name b, w.sending.buffers.get? name = some b →
    ∃ o, w.origins name = some o ∧ w.sending.pool.read b = o.bytes
  /-- Copies of one buffer are the same range. -/
  copies : ∀ b o b' o', w.Holds b o → w.Holds b' o' → o.cut = o'.cut → b = b'
  /-- Buffers that are not copies of each other have no byte in common. -/
  apart : ∀ b o b' o', w.Holds b o → w.Holds b' o' → o.cut ≠ o'.cut → b.Apart b'
  /-- An open region lies in its chunk and has no byte in common with a buffer. -/
  regions : ∀ name chunk size, w.opened? name = some (chunk, size) →
    w.sending.pool.front chunk + size ≤ SendChunk.capacity ∧
    ∀ b o, w.Holds b o → b.Apart (.range chunk (w.sending.pool.front chunk) size)

end Writing

/-! ## Who owns the chunks -/

namespace SendContext

section Holdings

variable {contexts : Table String SendContext} {name other : String} {cx : SendContext}

theorem holdings_cons (entry : String × SendContext) (rest : Table String SendContext) :
    holdings (entry :: rest) = entry.2.current.toList ++ holdings rest := by
  rw [holdings, List.filterMap_cons]
  cases entry.2.current <;> rfl

theorem holdings_perm (hd : contexts.Distinct) (h : contexts.get? name = some cx) :
    (holdings contexts).Perm (cx.current.toList ++ holdings (contexts.erase name)) := by
  have hperm := (Table.perm_erase hd h).filterMap fun entry => entry.2.current
  exact hperm.trans (.of_eq (holdings_cons _ _))

theorem holdings_insert_perm (hd : contexts.Distinct) (name : String) (cx : SendContext) :
    (holdings (contexts.insert name cx)).Perm
      (cx.current.toList ++ holdings (contexts.erase name)) := by
  have hperm := (Table.insert_perm hd name cx).filterMap fun entry => entry.2.current
  exact hperm.trans (.of_eq (holdings_cons _ _))

/-- A new context holds no chunk. -/
theorem holdings_insert_new (hd : contexts.Distinct) (hfree : contexts.get? name = none) :
    (holdings (contexts.insert name .new)).Perm (holdings contexts) := by
  have hinsert := holdings_insert_perm hd name .new
  rw [Table.erase_of_get?_eq_none hfree] at hinsert
  exact hinsert

theorem mem_holdings {chunk : Nat} (h : contexts.get? name = some ⟨some chunk⟩) :
    chunk ∈ holdings contexts :=
  List.mem_filterMap.mpr ⟨_, Table.mem_of_get? h, rfl⟩

theorem mem_holdings_erase {chunk : Nat} (hne : other ≠ name)
    (h : contexts.get? other = some ⟨some chunk⟩) : chunk ∈ holdings (contexts.erase name) := by
  have hkept : (contexts.erase name).get? other = some ⟨some chunk⟩ := by
    rw [Table.get?_erase, if_neg hne]
    exact h
  exact mem_holdings hkept

end Holdings

end SendContext

namespace Writing

open SendContext (holdings)

/-- The chunks of contexts and pool are different ones that exist. -/
structure Owned (contexts : Table String SendContext) (p : SendPool) : Prop where
  nodup : (holdings contexts ++ p.waiting).Nodup
  lt_created : ∀ chunk ∈ holdings contexts ++ p.waiting, chunk < p.created

/-- Open regions have room in the chunk of their context, which is nobody
else's. -/
structure Room (regions : String → Option Nat) (contexts : Table String SendContext)
    (p : SendPool) : Prop where
  chunks : p.WellFormed
  distinct : contexts.Distinct
  owned : Owned contexts p
  fits : ∀ name size, regions name = some size → ∃ chunk c,
    contexts.get? name = some ⟨some chunk⟩ ∧ p.chunks[chunk]? = some c ∧
      c.used + size ≤ SendChunk.capacity

section Rooms

variable {regions : String → Option Nat} {contexts contexts' : Table String SendContext}
  {p p' : SendPool} {name : String} {cx : SendContext} {chunk size : Nat}

theorem room_empty : Room (fun _ => none) [] SendPool.empty where
  chunks i c hc := by cases hc
  distinct := Table.distinct_nil
  owned := ⟨List.nodup_nil, fun chunk hchunk => by cases hchunk⟩
  fits name size hsize := by cases hsize

/-- An exchange between a context that held `mine` and then holds `mine'` and
the pool: they get only what they had and a chunk that is new. -/
theorem Owned.exchange (h : Owned contexts p) {mine mine' others : List Nat}
    (hmine : (holdings contexts).Perm (mine ++ others))
    (hmine' : (holdings contexts').Perm (mine' ++ others))
    (howners : (mine' ++ p'.waiting).Subperm (p.created :: (mine ++ p.waiting)))
    (hwaiting : p'.waiting ⊆ mine ++ p.waiting) (hcreated : p.created ≤ p'.created)
    (hnew : ∀ chunk ∈ mine', chunk < p'.created) : Owned contexts' p' := by
  have hbefore : (holdings contexts ++ p.waiting).Perm (others ++ (mine ++ p.waiting)) := by
    rw [← List.append_assoc]
    exact (hmine.trans List.perm_append_comm).append_right _
  have hafter : (holdings contexts' ++ p'.waiting).Perm (others ++ (mine' ++ p'.waiting)) := by
    rw [← List.append_assoc]
    exact (hmine'.trans List.perm_append_comm).append_right _
  have hold : ∀ chunk ∈ others ++ (mine ++ p.waiting), chunk < p.created := fun chunk hchunk =>
    h.lt_created chunk (hbefore.symm.subset hchunk)
  constructor
  · have hfresh : (others ++ p.created :: (mine ++ p.waiting)).Nodup := by
      rw [List.perm_middle.nodup_iff, List.nodup_cons, ← hbefore.nodup_iff]
      exact ⟨fun hmem => Nat.lt_irrefl _ (hold _ hmem), h.nodup⟩
    obtain ⟨kept, hkept, hsub⟩ := (List.subperm_append_left others).mpr howners
    exact hafter.nodup_iff.mpr (hkept.nodup_iff.mp (hsub.nodup hfresh))
  · intro chunk hchunk
    have hchunk := hafter.subset hchunk
    rw [List.mem_append, List.mem_append] at hchunk
    rcases hchunk with hother | hmine | hwait
    · exact Nat.lt_of_lt_of_le (hold chunk (List.mem_append_left _ hother)) hcreated
    · exact hnew chunk hmine
    · exact Nat.lt_of_lt_of_le (hold chunk (List.mem_append_right _ (hwaiting hwait))) hcreated

theorem Room.openRegion (h : Room regions contexts p) (hcx : contexts.get? name = some cx)
    (hopened : cx.Opened size p chunk p') :
    Room (Function.update regions name (some size)) (contexts.insert name ⟨some chunk⟩) p' := by
  obtain ⟨c, hc, hroom⟩ := hopened.room
  have hmine := SendContext.holdings_insert_perm h.distinct name ⟨some chunk⟩
  have howned : Owned (contexts.insert name ⟨some chunk⟩) p' := by
    refine h.owned.exchange (SendContext.holdings_perm h.distinct hcx) hmine hopened.owners
      hopened.waiting_subset hopened.spares.created_le fun i hi => ?_
    obtain rfl := List.mem_singleton.mp hi
    exact SendPool.lt_created_of_getElem? hc
  refine ⟨hopened.wellFormed, h.distinct.insert _ _, howned, fun other size' hsize' => ?_⟩
  by_cases hother : other = name
  · subst hother
    rw [Function.update_self] at hsize'
    obtain rfl := Option.some.inj hsize'
    exact ⟨chunk, c, Table.get?_insert_self _ _ _, hc, hroom⟩
  · rw [Function.update_of_ne hother] at hsize'
    obtain ⟨chunk', c', hcx', hc', hroom'⟩ := h.fits other size' hsize'
    have hne : chunk' ≠ chunk := by
      rintro rfl
      have hheld := hmine.nodup_iff.mp (List.nodup_append.mp howned.nodup).1
      exact (List.nodup_cons.mp hheld).1 (SendContext.mem_holdings_erase hother hcx')
    exact ⟨chunk', c', (Table.get?_insert_of_ne hother _ _).trans hcx',
      hopened.others _ c' hne hc', hroom'⟩

/-- A context that has no region open may change. -/
theorem Room.context (h : Room regions contexts p) (hregion : regions name = none)
    (hchunks : p'.chunks = p.chunks) (howned : Owned contexts' p') (hdistinct : contexts'.Distinct)
    (hothers : ∀ other, other ≠ name → contexts'.get? other = contexts.get? other) :
    Room regions contexts' p' := by
  refine ⟨fun i c hc => ?_, hdistinct, howned, fun other size hsize => ?_⟩
  · rw [hchunks] at hc
    exact h.chunks i c hc
  · have hne : other ≠ name := by
      rintro rfl
      rw [hregion] at hsize
      cases hsize
    rw [hothers other hne, hchunks]
    exact h.fits other size hsize

theorem Room.endContext (h : Room regions contexts p) (hregion : regions name = none)
    (hcx : contexts.get? name = some cx) : Room regions (contexts.erase name) (cx.drop p) := by
  have hmine := SendContext.holdings_perm h.distinct hcx
  have hnone : (holdings (contexts.erase name)).Perm ([] ++ holdings (contexts.erase name)) :=
    .refl _
  obtain ⟨hchunks, hwaiting⟩ : (cx.drop p).chunks = p.chunks ∧
      (cx.drop p).waiting.Subperm (cx.current.toList ++ p.waiting) := by
    rw [SendContext.drop]
    cases cx.current with
    | none => exact ⟨rfl, .refl _⟩
    | some chunk => exact ⟨SendPool.chunks_push chunk p, SendPool.waiting_push_subperm chunk p⟩
  refine h.context hregion hchunks ?_ (h.distinct.erase name) fun other hother => ?_
  · exact h.owned.exchange hmine hnone (hwaiting.trans (List.sublist_cons_self _ _).subperm)
      hwaiting.subset (Nat.le_of_eq (congrArg Array.size hchunks).symm) fun i hi => by cases hi
  · rw [Table.get?_erase, if_neg hother]

theorem Room.newContext (h : Room regions contexts p) (hregion : regions name = none)
    (hfree : contexts.get? name = none) : Room regions (contexts.insert name .new) p := by
  have hall := (SendContext.holdings_insert_new h.distinct hfree).append_right p.waiting
  refine h.context hregion rfl ⟨hall.nodup_iff.mpr h.owned.nodup, fun i hi => ?_⟩
    (h.distinct.insert _ _) fun other hother => Table.get?_insert_of_ne hother _ _
  exact h.owned.lt_created i (hall.subset hi)

theorem Room.giveBack (h : Room regions contexts p) (name : String) :
    Room (Function.update regions name none) contexts p := by
  refine ⟨h.chunks, h.distinct, h.owned, fun other size hsize => ?_⟩
  by_cases hother : other = name
  · rw [hother, Function.update_self] at hsize
    cases hsize
  · rw [Function.update_of_ne hother] at hsize
    exact h.fits other size hsize

/-- A change of a chunk in which no region is open, or after which the one
that is open there has room still. -/
theorem Room.modify (h : Room regions contexts p) {f : SendChunk → SendChunk} {c : SendChunk}
    (hc : p.chunks[chunk]? = some c) (hf : (f c).WellFormed)
    (hroom : ∀ other size, regions other = some size →
      contexts.get? other = some ⟨some chunk⟩ → (f c).used + size ≤ SendChunk.capacity) :
    Room regions contexts (p.modify chunk f) := by
  have howned : Owned contexts (p.modify chunk f) := by
    refine ⟨h.owned.nodup, fun i hi => ?_⟩
    rw [SendPool.created_modify]
    exact h.owned.lt_created i hi
  refine ⟨h.chunks.modify hc hf, h.distinct, howned, fun other size hsize => ?_⟩
  obtain ⟨i, c', hother, hc', hfits⟩ := h.fits other size hsize
  by_cases hi : chunk = i
  · subst hi
    exact ⟨chunk, f c, hother, SendPool.getElem?_modify_self hc, hroom other size hsize hother⟩
  · refine ⟨i, c', hother, ?_, hfits⟩
    rw [SendPool.getElem?_modify_of_ne hi]
    exact hc'

theorem Room.modify_of_used_eq (h : Room regions contexts p) {f : SendChunk → SendChunk}
    {c : SendChunk} (hc : p.chunks[chunk]? = some c) (hf : (f c).WellFormed)
    (hused : (f c).used = c.used) : Room regions contexts (p.modify chunk f) := by
  refine h.modify hc hf fun other size hsize hother => ?_
  obtain ⟨i, c', hcx, hc', hfits⟩ := h.fits other size hsize
  cases hother.symm.trans hcx
  obtain rfl := Option.some.inj (hc.symm.trans hc')
  rw [hused]
  exact hfits

theorem Room.retain (h : Room regions contexts p) {b : SendBuffer} (hplaced : b.Placed p) :
    Room regions contexts (p.retain b) := by
  cases b with
  | own bytes => exact h
  | range chunk offset length =>
      obtain ⟨c, hc, -⟩ := hplaced
      exact h.modify_of_used_eq hc ((h.chunks chunk c hc).recount _) rfl

theorem Room.drop (h : Room regions contexts p) {b : SendBuffer} (hplaced : b.Placed p) :
    Room regions contexts (p.drop b) := by
  cases b with
  | own bytes => exact h
  | range chunk offset length =>
      obtain ⟨c, hc, -⟩ := hplaced
      exact h.modify_of_used_eq hc ((h.chunks chunk c hc).recount _) rfl

theorem Room.current_lt_created (h : Room regions contexts p) (hcx : contexts.get? name = some cx) :
    ∀ chunk ∈ cx.current, chunk < p.created := by
  intro chunk hchunk
  refine h.owned.lt_created chunk (List.mem_append_left _ ?_)
  exact List.mem_filterMap.mpr ⟨_, Table.mem_of_get? hcx, hchunk⟩

/-- No two contexts hold one chunk. -/
theorem Room.eq_of_held (h : Room regions contexts p)
    (hcx : contexts.get? name = some ⟨some chunk⟩) {other : String}
    (hother : contexts.get? other = some ⟨some chunk⟩) : other = name := by
  by_contra hne
  have hmine := (SendContext.holdings_perm h.distinct hcx).nodup_iff.mp
    (List.nodup_append.mp h.owned.nodup).1
  exact (List.nodup_cons.mp hmine).1 (SendContext.mem_holdings_erase hne hother)

/-- Nobody else has a region open in the chunk of the context that closes. -/
theorem Room.close (h : Room regions contexts p) {c : SendChunk} {length : Nat}
    (hcx : contexts.get? name = some ⟨some chunk⟩) (hc : p.chunks[chunk]? = some c)
    (hlength : c.used + length ≤ SendChunk.capacity) :
    Room (Function.update regions name none) contexts (p.modify chunk (SendChunk.cut length)) := by
  refine (h.giveBack name).modify hc ⟨(h.chunks chunk c hc).length_memory, hlength⟩ ?_
  intro other size hsize hother
  obtain rfl := h.eq_of_held hcx hother
  rw [Function.update_self] at hsize
  cases hsize

end Rooms

/-! ## The buffers -/

/-- What is known of the held buffers, and of those that are in hand and have
no name yet. -/
structure Book (origins : String → Option Origin) (cuts : Nat)
    (hand : List (SendBuffer × Origin)) (buffers : Table String SendBuffer) (p : SendPool) :
    Prop where
  distinct : buffers.Distinct
  known : ∀ name b, buffers.get? name = some b → ∃ o, origins name = some o
  counts : p.Counts (hand.map Prod.fst ++ buffers.map Prod.snd)
  intact : p.Intact cuts fun b o =>
    (b, o) ∈ hand ∨ ∃ name, buffers.get? name = some b ∧ origins name = some o

section Books

variable {origins : String → Option Origin} {cuts : Nat} {hand : List (SendBuffer × Origin)}
  {buffers : Table String SendBuffer} {p p' : SendPool} {b : SendBuffer} {o : Origin}
  {name : String}

theorem book_empty : Book (fun _ => none) 0 [] [] SendPool.empty where
  distinct := Table.distinct_nil
  known name b hb := by cases hb
  counts i := rfl
  intact := by
    constructor <;> rintro b o <;> simp [Table.get?]

theorem Book.placed (h : Book origins cuts hand buffers p) (hb : buffers.get? name = some b) :
    b.Placed p := by
  obtain ⟨o, ho⟩ := h.known name b hb
  exact h.intact.placed b o (.inr ⟨name, hb, ho⟩)

theorem Book.spares (h : Book origins cuts [] buffers p) (hspares : p.Spares p') :
    Book origins cuts [] buffers p' := by
  refine ⟨h.distinct, h.known, h.counts.spares hspares, h.intact.stays ?_⟩
  rintro b o (hhand | ⟨name, hb, -⟩)
  · cases hhand
  · exact h.counts.stays (List.mem_map.mpr ⟨_, Table.mem_of_get? hb, rfl⟩) hspares

/-- Another holder of a buffer that has a name. -/
theorem Book.retain (h : Book origins cuts [] buffers p) (hb : buffers.get? name = some b)
    (ho : origins name = some o) : Book origins cuts [(b, o)] buffers (p.retain b) := by
  refine ⟨h.distinct, h.known, h.counts.retain (h.placed hb), ?_⟩
  refine (h.intact.mono ?_).stays fun b' o' _ => SendPool.stays_retain p b b'
  rintro b' o' (hhand | hnamed)
  · cases List.mem_singleton.mp hhand
    exact .inr ⟨name, hb, ho⟩
  · exact .inr hnamed

/-- A new buffer, made by a change of the pool under which the others stay. -/
theorem Book.make (h : Book origins cuts [] buffers p) (b : SendBuffer)
    (hcounts : p'.Counts (b :: buffers.map Prod.snd)) (hplaced : b.Placed p')
    (hstays : ∀ b' : SendBuffer, b'.Stays p p')
    (hapart : ∀ b' : SendBuffer, b'.Placed p → b'.Apart b) :
    Book origins (cuts + 1) [(b, ⟨cuts, p'.read b⟩)] buffers p' := by
  have hjoined := (h.intact.stays fun b' _ _ => hstays b').join hplaced
    fun b' o' hb' => hapart b' (h.intact.placed b' o' hb')
  refine ⟨h.distinct, h.known, hcounts, hjoined.mono ?_⟩
  rintro b' o' (hhand | hnamed)
  · cases List.mem_singleton.mp hhand
    exact .inr ⟨rfl, rfl⟩
  · exact .inl (.inr hnamed)

/-- The first free bytes are no buffer's, so cutting them off makes a new one. -/
theorem Book.close (h : Book origins cuts [] buffers p) {chunk : Nat} {c : SendChunk}
    (hc : p.chunks[chunk]? = some c) (length : Nat) :
    Book origins (cuts + 1)
      [(.range chunk c.used length,
        ⟨cuts, (p.modify chunk (SendChunk.cut length)).read (.range chunk c.used length)⟩)]
      buffers (p.modify chunk (SendChunk.cut length)) :=
  h.make _ (h.counts.modify_succ hc rfl)
    ⟨c.cut length, SendPool.getElem?_modify_self hc, Nat.le_refl _⟩
    (SendPool.stays_modify (SendChunk.keeps_cut length))
    fun _ hplaced => hplaced.apart_free hc length

theorem Book.own (h : Book origins cuts [] buffers p) (bytes : Bytes) :
    Book origins (cuts + 1) [(.own bytes, ⟨cuts, bytes⟩)] buffers p :=
  h.make (.own bytes) h.counts trivial (fun _ hplaced => ⟨hplaced, rfl⟩)
    fun _ _ _ _ _ hcovers => hcovers

/-- Letting go of a named buffer. -/
theorem Book.drop (h : Book origins cuts hand buffers p) (hb : buffers.get? name = some b) :
    Book origins cuts hand (buffers.erase name) (p.drop b) := by
  have hless : ∀ other b', (buffers.erase name).get? other = some b' →
      buffers.get? other = some b' := by
    intro other b' hb'
    rw [Table.get?_erase] at hb'
    split at hb'
    · cases hb'
    · exact hb'
  refine ⟨h.distinct.erase name, fun other b' hb' => h.known other b' (hless other b' hb'), ?_, ?_⟩
  · have hperm := ((Table.perm_erase h.distinct hb).map Prod.snd).append_left (hand.map Prod.fst)
    exact (h.counts.perm (hperm.trans List.perm_middle)).drop
  · refine (h.intact.mono ?_).stays fun b' o' _ => SendPool.stays_drop p b b'
    rintro b' o' (hhand | ⟨other, hb', ho'⟩)
    · exact .inl hhand
    · exact .inr ⟨other, hless other b' hb', ho'⟩

/-- The buffer in hand gets a name that is free. -/
theorem Book.put (h : Book origins cuts [(b, o)] buffers p) (hfree : buffers.get? name = none) :
    Book (Function.update origins name (some o)) cuts [] (buffers.insert name b) p := by
  refine ⟨h.distinct.insert _ _, fun other b' hb' => ?_, ?_, h.intact.mono ?_⟩
  · by_cases hother : other = name
    · exact ⟨o, by rw [hother, Function.update_self]⟩
    · rw [Table.get?_insert_of_ne hother] at hb'
      rw [Function.update_of_ne hother]
      exact h.known other b' hb'
  · have hperm := (Table.insert_perm h.distinct name b).map Prod.snd
    rw [Table.erase_of_get?_eq_none hfree] at hperm
    exact h.counts.perm hperm.symm
  · rintro b' o' (hhand | ⟨other, hb', ho'⟩)
    · cases hhand
    · by_cases hother : other = name
      · subst hother
        rw [Table.get?_insert_self] at hb'
        rw [Function.update_self] at ho'
        cases hb'
        cases ho'
        exact .inl (List.mem_singleton.mpr rfl)
      · rw [Table.get?_insert_of_ne hother] at hb'
        rw [Function.update_of_ne hother] at ho'
        exact .inr ⟨other, hb', ho'⟩

/-- The origin under a name that is free does not matter. -/
theorem Book.forget (h : Book origins cuts hand buffers p) (hfree : buffers.get? name = none) :
    Book (Function.update origins name none) cuts hand buffers p := by
  have hsame : ∀ other b', buffers.get? other = some b' →
      Function.update origins name none other = origins other := by
    intro other b' hb'
    refine Function.update_of_ne ?_ _ _
    rintro rfl
    rw [hfree] at hb'
    cases hb'
  refine ⟨h.distinct, fun other b' hb' => ?_, h.counts, h.intact.mono ?_⟩
  · rw [hsame other b' hb']
    exact h.known other b' hb'
  · rintro b' o' (hhand | ⟨other, hb', ho'⟩)
    · exact .inl hhand
    · rw [hsame other b' hb'] at ho'
      exact .inr ⟨other, hb', ho'⟩

end Books

/-! ## One step -/

structure Sound (w : Writing) : Prop where
  room : Room w.regions w.sending.contexts w.sending.pool
  book : Book w.origins w.cuts [] w.sending.buffers w.sending.pool

section Steps

variable {w : Writing}

theorem sound_empty : empty.Sound := ⟨room_empty, book_empty⟩

/-- Keeping the buffer in hand, which lets go of the one kept under its name. -/
theorem sound_keep {b : SendBuffer} {o : Origin}
    (hroom : Room w.regions w.sending.contexts w.sending.pool)
    (hbook : Book w.origins w.cuts [(b, o)] w.sending.buffers w.sending.pool) (name : String) :
    (w.keep name b o).Sound := by
  rw [keep, Sending.keep, Sending.dropBuffer]
  cases hold : w.sending.buffers.get? name with
  | none => exact ⟨hroom, hbook.put hold⟩
  | some old =>
      have hfree : (w.sending.buffers.erase name).get? name = none := by
        rw [Table.get?_erase, if_pos rfl]
      exact ⟨hroom.drop (hbook.placed hold), (hbook.drop hold).put hfree⟩

theorem Sound.dropContext (h : w.Sound) {name : String} (hregion : w.regions name = none) :
    { w with sending := w.sending.dropContext name }.Sound := by
  rw [Sending.dropContext]
  cases hcx : w.sending.contexts.get? name with
  | none => exact h
  | some cx =>
      have hspares := SendPool.spares_of_chunks_eq (SendContext.chunks_drop w.sending.pool cx)
      exact ⟨h.room.endContext hregion hcx, h.book.spares hspares⟩

theorem Sound.context (h : w.Sound) {name : String} (hregion : w.regions name = none) :
    { w with sending := w.sending.context name }.Sound := by
  have hended := h.dropContext hregion
  have hfree : (w.sending.dropContext name).contexts.get? name = none := by
    rw [Sending.dropContext]
    cases hcx : w.sending.contexts.get? name with
    | none => exact hcx
    | some cx =>
        dsimp only
        rw [Table.get?_erase, if_pos rfl]
  exact ⟨hended.room.newContext hregion hfree, hended.book⟩

theorem Sound.dropBuffer (h : w.Sound) (name : String) :
    { w with
      sending := w.sending.dropBuffer name
      origins := Function.update w.origins name none }.Sound := by
  rw [Sending.dropBuffer]
  cases hold : w.sending.buffers.get? name with
  | none => exact ⟨h.room, h.book.forget hold⟩
  | some old =>
      have hfree : (w.sending.buffers.erase name).get? name = none := by
        rw [Table.get?_erase, if_pos rfl]
      exact ⟨h.room.drop (h.book.placed hold), (h.book.drop hold).forget hfree⟩

theorem Sound.opened (h : w.Sound) {name : String} {chunk size : Nat}
    (hopened : w.opened? name = some (chunk, size)) :
    ∃ c, w.sending.contexts.get? name = some ⟨some chunk⟩ ∧
      w.sending.pool.chunks[chunk]? = some c ∧ c.used + size ≤ SendChunk.capacity := by
  obtain ⟨size', hregion, hcurrent⟩ := Option.bind_eq_some_iff.mp hopened
  obtain ⟨chunk', hchunk, heq⟩ := Option.map_eq_some_iff.mp hcurrent
  cases heq
  obtain ⟨mine, c, hcx, hc, hroom⟩ := h.room.fits name size hregion
  rw [hcx] at hchunk
  cases hchunk
  exact ⟨c, hcx, hc, hroom⟩

theorem Sound.step (h : w.Sound) (action : Step) : (w.step action).Sound := by
  cases action with
  | context name =>
      rw [Writing.step]
      split
      next hregion => exact h.context (Option.isNone_iff_eq_none.mp hregion)
      next => exact h
  | dropContext name =>
      rw [Writing.step]
      split
      next hregion => exact h.dropContext (Option.isNone_iff_eq_none.mp hregion)
      next => exact h
  | openRegion name size =>
      rw [Writing.step]
      split
      next hregion =>
          split
          next chunk pool hopen =>
              obtain ⟨cx, hcx, hopen⟩ := Option.bind_eq_some_iff.mp hopen
              have hcurrent := h.room.current_lt_created hcx
              have hopened := SendContext.open?_opened h.room.chunks hcurrent hopen
              exact ⟨h.room.openRegion hcx hopened, h.book.spares hopened.spares⟩
          next => exact h
      next => exact h
  | write name offset bytes =>
      rw [Writing.step]
      split
      next chunk size hopened =>
          split
          next hfit =>
              obtain ⟨c, -, hc, hroom⟩ := h.opened hopened
              have hwf := h.room.chunks chunk c hc
              have hfits : c.used + offset + bytes.length ≤ SendChunk.capacity := by omega
              exact ⟨h.room.modify_of_used_eq hc (hwf.writeAt hfits) rfl,
                h.book.spares (SendPool.spares_modify hc (hwf.spares_writeAt hfits))⟩
          next => exact h
      next => exact h
  | close name length buffer =>
      rw [Writing.step]
      split
      next chunk size hopened =>
          obtain ⟨c, hcx, hc, hroom⟩ := h.opened hopened
          have hfits : c.used + min length size ≤ SendChunk.capacity := by omega
          rw [SendContext.close, hc]
          exact sound_keep (h.room.close hcx hc hfits) (h.book.close hc _) buffer
      next => exact h
  | abandon name => exact ⟨h.room.giveBack name, h.book⟩
  | copy source buffer =>
      rw [Writing.step]
      split
      next b o hb ho =>
        exact sound_keep (h.room.retain (h.book.placed hb)) (h.book.retain hb ho) buffer
      next => exact h
  | own buffer bytes =>
      rw [Writing.step]
      refine sound_keep ?_ ?_ buffer
      · exact h.room
      · exact h.book.own bytes
  | dropBuffer buffer => exact h.dropBuffer buffer

/-! ## All runs -/

theorem Sound.run (h : w.Sound) (steps : List Step) : (w.run steps).Sound := by
  induction steps generalizing w with
  | nil => exact h
  | cons first rest ih => exact ih (h.step first)

theorem Sound.safe (h : w.Sound) : w.Safe where
  owned := h.room.owned.nodup
  bytes name b hb := by
    obtain ⟨o, ho⟩ := h.book.known name b hb
    exact ⟨o, ho, h.book.intact.read_eq b o (.inr ⟨name, hb, ho⟩)⟩
  copies b o b' o' hb hb' := h.book.intact.copies b o b' o' (.inr hb) (.inr hb')
  apart b o b' o' hb hb' := h.book.intact.apart b o b' o' (.inr hb) (.inr hb')
  regions name chunk size hopened := by
    obtain ⟨c, -, hc, hroom⟩ := h.opened hopened
    have hfront : w.sending.pool.front chunk = c.used := by
      rw [SendPool.front, hc]
      rfl
    rw [hfront]
    exact ⟨hroom, fun b o hb => (h.book.intact.placed b o (.inr hb)).apart_free hc size⟩

end Steps

/-- After every run of contexts and buffers, nothing that is held was
overwritten or can be. -/
theorem safe_run (steps : List Step) : (empty.run steps).Safe :=
  (sound_empty.run steps).safe

end Writing

end SessionEngine

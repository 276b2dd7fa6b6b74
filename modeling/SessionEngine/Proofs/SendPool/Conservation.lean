import SessionEngine.Proofs.SendPool.Moves

/-!
# Chunks are conserved

A chunk that was ever created is held by a context, waits in the pool or was
turned away by a full pool, and it is never in two of these places
(`Conserved`). What a step can do with chunks is one of three things
(`Circulation`): nothing, giving one back, or giving one back and getting one.
The pool hands out the last waiting chunk that may be written again, and
creates one only if there is none (`SendPool.HandsOut`).

From this follows how many chunks a run creates at most: if nobody holds a
buffer when a region is opened, a chunk is created only if none waits, so there
are never more of them than there were contexts at once (`circulates_run`).
-/

namespace SessionEngine

open SendContext (holdings)

/-! ## Handing out a chunk -/

namespace SendPool

/-- How the pool hands out a chunk. -/
inductive HandsOut (p : SendPool) : Nat → SendPool → Prop where
  /-- A new one, as none of those that wait may be written again. -/
  | new {p' : SendPool} (hnone : ∀ i ∈ p.waiting, p.isReusable i = false)
      (hwaiting : p'.waiting = p.waiting) (hcreated : p'.created = p.created + 1) :
      HandsOut p p.created p'
  /-- The last one that may be written again, and all others wait on. -/
  | reused {p' : SendPool} {chunk : Nat} {front back : List Nat}
      (hfound : p.waiting = front ++ chunk :: back) (hreusable : p.isReusable chunk = true)
      (hlast : ∀ i ∈ back, p.isReusable i = false)
      (hwaiting : p'.waiting.Perm (front ++ back)) (hcreated : p'.created = p.created) :
      HandsOut p chunk p'

section Handing

variable {p p' : SendPool} {chunk place : Nat}

theorem lastReusable?_eq_none (h : p.lastReusable? = none) :
    ∀ i ∈ p.waiting, p.isReusable i = false := by
  rw [lastReusable?, Option.map_eq_none_iff, List.findIdx?_eq_none_iff] at h
  intro i hi
  exact h i (List.mem_reverse.mpr hi)

theorem lastReusable?_eq_some (h : p.lastReusable? = some place) :
    ∃ front chunk back, p.waiting = front ++ chunk :: back ∧ front.length = place ∧
      p.isReusable chunk = true ∧ ∀ i ∈ back, p.isReusable i = false := by
  rw [lastReusable?] at h
  obtain ⟨before, hbefore, rfl⟩ := Option.map_eq_some_iff.mp h
  obtain ⟨hlt, hreusable, hearlier⟩ := List.findIdx?_eq_some_iff_getElem.mp hbefore
  -- the search goes backwards, so what it passed over waits behind the chunk
  have hcut : p.waiting.reverse =
      p.waiting.reverse.take before ++ p.waiting.reverse[before] ::
        p.waiting.reverse.drop (before + 1) := by
    rw [List.getElem_cons_drop, List.take_append_drop]
  refine ⟨(p.waiting.reverse.drop (before + 1)).reverse, p.waiting.reverse[before],
    (p.waiting.reverse.take before).reverse, ?_, ?_, hreusable, fun i hi => ?_⟩
  · have hwaiting := congrArg List.reverse hcut
    rw [List.reverse_reverse, List.reverse_append, List.reverse_cons, List.append_assoc] at hwaiting
    exact hwaiting
  · rw [List.length_reverse, List.length_drop, List.length_reverse]
    omega
  · obtain ⟨j, hj, rfl⟩ := List.mem_take_iff_getElem.mp (List.mem_reverse.mp hi)
    simpa using hearlier j (by omega)

theorem pop_handsOut (p : SendPool) : p.HandsOut p.pop.1 p.pop.2 := by
  rw [pop]
  cases hplace : p.lastReusable? with
  | none => exact .new (lastReusable?_eq_none hplace) rfl (Array.size_push _)
  | some place =>
      obtain ⟨front, chunk, back, hfound, rfl, hreusable, hlast⟩ := lastReusable?_eq_some hplace
      have hat : p.waiting[front.length]? = some chunk := by
        rw [hfound, List.getElem?_append_right (Nat.le_refl _), Nat.sub_self]
        rfl
      rw [Option.bind_some, hat]
      refine .reused hfound hreusable hlast ?_ (created_modify p chunk _)
      have htaken := takeAt_perm hat
      rw [hfound] at htaken ⊢
      exact (htaken.trans List.perm_middle).cons_inv

/-- Whoever gets the chunk has it from those that wait, or it is new. -/
theorem HandsOut.perm (h : p.HandsOut chunk p') :
    ∃ added, List.range p'.created = List.range p.created ++ added ∧
      (chunk :: p'.waiting).Perm (added ++ p.waiting) := by
  cases h with
  | new hnone hwaiting hcreated =>
      refine ⟨[p.created], ?_, ?_⟩
      · rw [hcreated, List.range_succ]
      · rw [hwaiting]
        exact .refl _
  | reused hfound hreusable hlast hwaiting hcreated =>
      refine ⟨[], ?_, ?_⟩
      · rw [hcreated, List.append_nil]
      · rw [List.nil_append, hfound]
        exact (hwaiting.cons chunk).trans List.perm_middle.symm

theorem HandsOut.modify (h : p.HandsOut chunk p') (i : Nat) (f : SendChunk → SendChunk) :
    p.HandsOut chunk (p'.modify i f) := by
  cases h with
  | new hnone hwaiting hcreated =>
      exact .new hnone hwaiting ((created_modify _ _ _).trans hcreated)
  | reused hfound hreusable hlast hwaiting hcreated =>
      exact .reused hfound hreusable hlast hwaiting ((created_modify _ _ _).trans hcreated)

theorem HandsOut.length_le (h : p.HandsOut chunk p') :
    p'.waiting.length ≤ p.waiting.length := by
  cases h with
  | new hnone hwaiting hcreated => exact Nat.le_of_eq (congrArg List.length hwaiting)
  | reused hfound hreusable hlast hwaiting hcreated =>
      rw [hwaiting.length_eq, hfound, List.length_append, List.length_append, List.length_cons]
      omega

end Handing

end SendPool

/-! ## Giving a chunk back -/

namespace SendContext

/-- The chunk of a context that ends while the pool is full. -/
def turnedAway (p : SendPool) (cx : SendContext) : List Nat :=
  if p.pooled < SendPool.maxWaiting then [] else cx.current.toList

variable {p : SendPool} {cx : SendContext}

theorem waiting_drop (p : SendPool) (cx : SendContext) :
    ((cx.drop p).waiting ++ cx.turnedAway p).Perm (cx.current.toList ++ p.waiting) := by
  rw [turnedAway, drop]
  cases cx.current with
  | none =>
      dsimp only
      rw [Option.toList_none, ite_self, List.append_nil]
      exact .refl _
  | some chunk =>
      dsimp only
      rw [SendPool.push]
      split
      · rw [List.append_nil]
        exact List.perm_append_singleton chunk p.waiting
      · exact List.perm_append_comm

theorem pooled_drop_le (h : p.pooled ≤ SendPool.maxWaiting) :
    (cx.drop p).pooled ≤ SendPool.maxWaiting := by
  rw [drop]
  split
  · rw [SendPool.push]
    split
    next hroom =>
        rw [SendPool.pooled, List.length_append, List.length_singleton]
        exact hroom
    next => exact h
  · exact h

end SendContext

/-! ## What a step does with chunks -/

namespace Writing

/-- The context that gives its chunk back in a step, if it holds one: it ends,
or goes on to another chunk. -/
def givesBack? (w : Writing) : Step → Option SendContext
  | .context name => if (w.regions name).isNone then w.sending.contexts.get? name else none
  | .dropContext name => if (w.regions name).isNone then w.sending.contexts.get? name else none
  | .openRegion name size =>
      if (w.regions name).isNone && decide (size ≤ SendChunk.capacity) then
        (w.sending.contexts.get? name).filter (SendContext.takes size w.sending.pool)
      else none
  | _ => none

/-- The chunk that a full pool turns away in a step. -/
def discards (w : Writing) (action : Step) : List Nat :=
  (w.givesBack? action).elim [] (SendContext.turnedAway w.sending.pool)

/-- The chunks that are turned away in a run. -/
def discarded (w : Writing) : List Step → List Nat
  | [] => []
  | first :: rest => w.discards first ++ (w.step first).discarded rest

/-- What a step does with chunks. -/
inductive Circulation (w : Writing) (action : Step) (w' : Writing) : Prop where
  /-- Nothing. -/
  | stays (hback : w.givesBack? action = none)
      (hheld : (holdings w'.sending.contexts).Perm (holdings w.sending.contexts))
      (hwaiting : w'.sending.pool.waiting = w.sending.pool.waiting)
      (hcreated : w'.sending.pool.created = w.sending.pool.created)
  | back {name : String} {cx : SendContext} (hback : w.givesBack? action = some cx)
      (hcx : w.sending.contexts.get? name = some cx)
      (hheld : (holdings w'.sending.contexts).Perm (holdings (w.sending.contexts.erase name)))
      (hwaiting : w'.sending.pool.waiting = (cx.drop w.sending.pool).waiting)
      (hcreated : w'.sending.pool.created = w.sending.pool.created)
  /-- A context goes on to another chunk. -/
  | exchange {name : String} {size chunk : Nat} {cx : SendContext}
      (haction : action = .openRegion name size) (hback : w.givesBack? action = some cx)
      (hcx : w.sending.contexts.get? name = some cx)
      (hheld : (holdings w'.sending.contexts).Perm
        (chunk :: holdings (w.sending.contexts.erase name)))
      (hout : (cx.drop w.sending.pool).HandsOut chunk w'.sending.pool)

section Steps

variable {w w' : Writing} {action : Step} {name : String} {cx : SendContext} {size : Nat}

theorem circulation_of_recounted (hback : w.givesBack? action = none)
    (hpool : w.sending.pool.Recounted w'.sending.pool)
    (hcontexts : w'.sending.contexts = w.sending.contexts) : w.Circulation action w' := by
  refine .stays hback ?_ hpool.waiting_eq hpool.created_eq
  rw [hcontexts]

theorem Sound.circulation_context (h : w.Sound) (name : String) :
    w.Circulation (.context name) (w.step (.context name)) := by
  rw [Writing.step]
  split
  next hregion =>
      have hback : w.givesBack? (.context name) = w.sending.contexts.get? name := if_pos hregion
      rw [Sending.context]
      cases hcx : w.sending.contexts.get? name with
      | none =>
          rw [hcx] at hback
          rw [Sending.dropContext_of_get?_eq_none hcx]
          exact .stays hback (SendContext.holdings_insert_new h.room.distinct hcx) rfl rfl
      | some cx =>
          rw [hcx] at hback
          have hgone : (w.sending.contexts.erase name).get? name = none :=
            (Table.get?_erase _ _ _).trans (if_pos rfl)
          have hheld := SendContext.holdings_insert_new (h.room.distinct.erase name) hgone
          rw [Sending.dropContext_of_get? hcx]
          exact .back hback hcx hheld rfl (cx.created_drop _)
  next hregion => exact circulation_of_recounted (if_neg hregion) (.refl _) rfl

theorem circulation_dropContext (w : Writing) (name : String) :
    w.Circulation (.dropContext name) (w.step (.dropContext name)) := by
  rw [Writing.step]
  split
  next hregion =>
      have hback : w.givesBack? (.dropContext name) = w.sending.contexts.get? name :=
        if_pos hregion
      cases hcx : w.sending.contexts.get? name with
      | none =>
          rw [hcx] at hback
          rw [Sending.dropContext_of_get?_eq_none hcx]
          exact circulation_of_recounted hback (.refl _) rfl
      | some cx =>
          rw [hcx] at hback
          rw [Sending.dropContext_of_get? hcx]
          exact .back hback hcx (.refl _) rfl (cx.created_drop _)
  next hregion => exact circulation_of_recounted (if_neg hregion) (.refl _) rfl

/-- A context that has no region open asks for one. -/
theorem givesBack?_openRegion (hcx : w.sending.contexts.get? name = some cx)
    (hregion : w.regions name = none) (hsize : size ≤ SendChunk.capacity) :
    w.givesBack? (.openRegion name size) =
      if cx.takes size w.sending.pool then some cx else none := by
  rw [givesBack?, hregion, hcx, decide_eq_true hsize]
  rfl

theorem openRegion_handsOut (hcx : w.sending.contexts.get? name = some cx)
    (hregion : w.regions name = none) (hsize : size ≤ SendChunk.capacity)
    (htakes : cx.takes size w.sending.pool = true) :
    ∃ chunk,
      (w.step (.openRegion name size)).sending.contexts =
          w.sending.contexts.insert name ⟨some chunk⟩ ∧
        (cx.drop w.sending.pool).HandsOut chunk (w.step (.openRegion name size)).sending.pool := by
  rw [step_openRegion hcx hregion hsize, SendContext.supply_of_takes htakes]
  exact ⟨_, rfl, (SendPool.pop_handsOut _).modify _ _⟩

theorem Sound.circulation_openRegion (h : w.Sound) (name : String) (size : Nat) :
    w.Circulation (.openRegion name size) (w.step (.openRegion name size)) := by
  by_cases hsize : size ≤ SendChunk.capacity
  swap
  · rw [step_openRegion_of_capacity_lt (Nat.not_le.mp hsize)]
    exact circulation_of_recounted (by simp [givesBack?, hsize]) (.refl _) rfl
  cases hregion : w.regions name with
  | some old =>
      have hopen : (w.regions name).isSome = true := by rw [hregion]; rfl
      rw [step_openRegion_of_isSome hopen]
      exact circulation_of_recounted (by simp [givesBack?, hregion]) (.refl _) rfl
  | none =>
      cases hcx : w.sending.contexts.get? name with
      | none =>
          rw [step_openRegion_of_get?_eq_none hcx]
          exact circulation_of_recounted (by simp [givesBack?, hcx]) (.refl _) rfl
      | some cx =>
          have hback := givesBack?_openRegion hcx hregion hsize
          have hmine := SendContext.holdings_perm h.room.distinct hcx
          cases htakes : cx.takes size w.sending.pool with
          | false =>
              obtain ⟨chunk, hcurrent, -, hsupply⟩ := SendContext.supply_of_not_takes htakes
              obtain rfl : cx = ⟨some chunk⟩ := congrArg SendContext.mk hcurrent
              rw [htakes] at hback
              rw [step_openRegion hcx hregion hsize, hsupply]
              refine .stays hback ?_ rfl (SendPool.created_modify _ _ _)
              exact (SendContext.holdings_insert_perm h.room.distinct name _).trans hmine.symm
          | true =>
              obtain ⟨chunk, hcontexts, hout⟩ :=
                openRegion_handsOut hcx hregion hsize htakes
              rw [htakes] at hback
              refine .exchange rfl hback hcx ?_ hout
              rw [hcontexts]
              exact SendContext.holdings_insert_perm h.room.distinct name _

theorem Sound.circulation (h : w.Sound) (action : Step) :
    w.Circulation action (w.step action) := by
  cases action with
  | context name => exact h.circulation_context name
  | dropContext name => exact circulation_dropContext w name
  | openRegion name size => exact h.circulation_openRegion name size
  | write name offset bytes =>
      rw [Writing.step]
      split
      next chunk size hopened =>
          split
          · exact .stays rfl (.refl _) rfl (SendPool.created_modify _ _ _)
          · exact circulation_of_recounted rfl (.refl _) rfl
      next => exact circulation_of_recounted rfl (.refl _) rfl
  | close name length buffer =>
      cases hopened : w.opened? name with
      | none =>
          rw [Writing.step, hopened]
          exact circulation_of_recounted rfl (.refl _) rfl
      | some place =>
          obtain ⟨chunk, size⟩ := place
          obtain ⟨c, hcx, hc, hroom⟩ := h.opened hopened
          obtain ⟨o, hstep⟩ := step_close hopened hc length buffer
          obtain ⟨hpool, hcontexts⟩ :=
            (w.cutOff name chunk (min length size)).sending.recounted_keep buffer
              (.range chunk c.used (min length size))
          rw [hstep]
          refine .stays rfl ?_ hpool.waiting_eq
            (hpool.created_eq.trans (SendPool.created_modify _ _ _))
          exact .of_eq (congrArg holdings hcontexts)
  | abandon name => exact circulation_of_recounted rfl (.refl _) rfl
  | copy source buffer =>
      rw [Writing.step]
      split
      next held o hheld ho =>
          obtain ⟨hpool, hcontexts⟩ := Sending.recounted_keep
            { w.sending with pool := w.sending.pool.retain held } buffer held
          exact circulation_of_recounted rfl ((SendPool.recounted_retain _ _).trans hpool) hcontexts
      next => exact circulation_of_recounted rfl (.refl _) rfl
  | own buffer bytes =>
      obtain ⟨hpool, hcontexts⟩ := w.sending.recounted_keep buffer (.own bytes)
      exact circulation_of_recounted rfl hpool hcontexts
  | dropBuffer buffer =>
      obtain ⟨hpool, hcontexts⟩ := w.sending.recounted_dropBuffer buffer
      exact circulation_of_recounted rfl hpool hcontexts

end Steps

/-! ## No chunk is lost -/

/-- Every chunk that was ever created is at one place, and the pool is not too
large. -/
structure Conserved (w : Writing) (gone : List Nat) : Prop where
  /-- The pool stays bounded. -/
  pooled_le : w.sending.pool.pooled ≤ SendPool.maxWaiting
  /-- A chunk is with one context, waits at one place or was turned away once. -/
  chunks : (holdings w.sending.contexts ++ w.sending.pool.waiting ++ gone).Perm
    (List.range w.sending.pool.created)

section Conserving

variable {w w' : Writing} {action : Step} {gone : List Nat}

theorem conserved_empty : empty.Conserved [] := ⟨Nat.zero_le _, .refl _⟩

/-- A context gives `mine` back, of which `away` is turned away, and gets
`mine'`, of which `added` is new. -/
theorem perm_of_exchange {held held' others mine mine' waiting waiting' returned away added gone
    all : List Nat} (hheld : held.Perm (mine ++ others)) (hheld' : held'.Perm (mine' ++ others))
    (hreturned : (returned ++ away).Perm (mine ++ waiting))
    (hhanded : (mine' ++ waiting').Perm (added ++ returned))
    (hall : (held ++ waiting ++ gone).Perm all) :
    (held' ++ waiting' ++ (gone ++ away)).Perm (all ++ added) := by
  rw [List.perm_iff_count] at *
  intro chunk
  have h := hheld chunk
  have h' := hheld' chunk
  have hback := hreturned chunk
  have hout := hhanded chunk
  have hbefore := hall chunk
  simp only [List.count_append] at h h' hback hout hbefore ⊢
  omega

theorem Conserved.circulation (h : w.Conserved gone) (hsound : w.Sound)
    (hcirculation : w.Circulation action w') : w'.Conserved (gone ++ w.discards action) := by
  cases hcirculation with
  | stays hback hheld hwaiting hcreated =>
      rw [discards, hback, Option.elim_none, List.append_nil]
      refine ⟨?_, ?_⟩
      · rw [SendPool.pooled, hwaiting]
        exact h.pooled_le
      · rw [hwaiting, hcreated]
        exact ((hheld.append_right _).append_right _).trans h.chunks
  | @back name cx hback hcx hheld hwaiting hcreated =>
      rw [discards, hback, Option.elim_some]
      refine ⟨?_, ?_⟩
      · rw [SendPool.pooled, hwaiting]
        exact SendContext.pooled_drop_le h.pooled_le
      · have hmine := SendContext.holdings_perm hsound.room.distinct hcx
        have hhanded : ([] ++ (cx.drop w.sending.pool).waiting).Perm
            ([] ++ (cx.drop w.sending.pool).waiting) := .refl _
        have hperm := perm_of_exchange hmine hheld (SendContext.waiting_drop _ cx) hhanded h.chunks
        rw [hwaiting, hcreated]
        rw [List.append_nil] at hperm
        exact hperm
  | @exchange name size chunk cx haction hback hcx hheld hout =>
      rw [discards, hback, Option.elim_some]
      refine ⟨?_, ?_⟩
      · exact Nat.le_trans hout.length_le (SendContext.pooled_drop_le h.pooled_le)
      · have hmine := SendContext.holdings_perm hsound.room.distinct hcx
        obtain ⟨added, hrange, hperm⟩ := hout.perm
        have hhanded : ([chunk] ++ w'.sending.pool.waiting).Perm
            (added ++ (cx.drop w.sending.pool).waiting) := hperm
        rw [hrange, cx.created_drop]
        exact perm_of_exchange hmine hheld (SendContext.waiting_drop _ cx) hhanded h.chunks

theorem Conserved.run (h : w.Conserved gone) (hsound : w.Sound) (steps : List Step) :
    (w.run steps).Conserved (gone ++ w.discarded steps) := by
  induction steps generalizing w gone with
  | nil =>
      rw [discarded, List.append_nil]
      exact h
  | cons first rest ih =>
      have hfirst := h.circulation hsound (hsound.circulation first)
      rw [discarded, ← List.append_assoc]
      exact ih hfirst (hsound.step first)

def holders (w : Writing) : Nat :=
  w.sending.contexts.countP fun entry => entry.2.current.isSome

theorem Conserved.created_eq (h : w.Conserved gone) :
    w.sending.pool.created = w.sending.pool.pooled + w.holders + gone.length := by
  have hlength := h.chunks.length_eq
  rw [List.length_range, List.length_append, List.length_append, holdings,
    List.length_filterMap_eq_countP] at hlength
  rw [← hlength, SendPool.pooled, holders]
  omega

end Conserving

/-! ## Chunks that may be written again -/

/-- No buffer that is held is a range of the chunk. -/
def Unreferred (w : Writing) (chunk : Nat) : Prop :=
  ∀ name b, w.sending.buffers.get? name = some b → b.refersTo chunk = false

/-- No buffer that is held is a range of any chunk. -/
def Quiet (w : Writing) : Prop := ∀ chunk, w.Unreferred chunk

section Reusing

variable {w : Writing} {chunk : Nat}

theorem quiet_of_buffers_eq_nil (h : w.sending.buffers = []) : w.Quiet := by
  intro chunk name b hb
  rw [h] at hb
  cases hb

theorem Sound.refs_eq_zero_iff (h : w.Sound) :
    w.sending.pool.refs chunk = 0 ↔ w.Unreferred chunk := by
  rw [h.book.counts chunk, List.countP_eq_zero]
  constructor
  · intro hnone name b hb
    exact Bool.eq_false_iff.mpr (hnone b (List.mem_map.mpr ⟨_, Table.mem_of_get? hb, rfl⟩))
  · intro hnone b hb
    obtain ⟨entry, hentry, rfl⟩ := List.mem_map.mp hb
    have hfound := Table.get?_of_mem h.book.distinct hentry
    exact Bool.eq_false_iff.mp (hnone _ _ hfound)

theorem Sound.isReusable_iff (h : w.Sound) (hlt : chunk < w.sending.pool.created) :
    w.sending.pool.isReusable chunk = true ↔
      w.Unreferred chunk ∨ w.sending.pool.front chunk = 0 := by
  obtain ⟨c, hc⟩ := SendPool.exists_of_lt_created hlt
  rw [← h.refs_eq_zero_iff, SendPool.isReusable, SendPool.refs_of_getElem? hc, SendPool.front, hc,
    Option.any_some, SendChunk.reusable, Bool.or_eq_true, decide_eq_true_iff, decide_eq_true_iff]
  exact Iff.rfl

end Reusing

/-! ## How many chunks are created -/

def opens (w : Writing) : Step → Bool
  | .openRegion name _ => (w.regions name).isNone && (w.sending.contexts.get? name).isSome
  | _ => false

/-- Whenever a region is opened, nobody holds a buffer. -/
def QuietWhenOpening (w : Writing) : List Step → Prop
  | [] => True
  | first :: rest =>
      (w.opens first = true → w.Quiet) ∧ (w.step first).QuietWhenOpening rest

/-- The largest number of contexts that there are at once. -/
def peak (w : Writing) : List Step → Nat
  | [] => w.sending.contexts.length
  | first :: rest => max w.sending.contexts.length ((w.step first).peak rest)

section Counting

variable {w w' : Writing} {action : Step}

theorem of_givesBack?_openRegion {name : String} {size : Nat} {cx : SendContext}
    (hback : w.givesBack? (.openRegion name size) = some cx) :
    w.sending.contexts.get? name = some cx ∧ w.regions name = none ∧
      cx.takes size w.sending.pool = true := by
  rw [givesBack?] at hback
  split at hback
  next hasks =>
      obtain ⟨hcx, htakes⟩ := Option.filter_eq_some_iff.mp hback
      exact ⟨hcx, Option.isNone_iff_eq_none.mp (Bool.and_eq_true_iff.mp hasks).1, htakes⟩
  next => cases hback

theorem opens_of_givesBack? {name : String} {size : Nat} {cx : SendContext}
    (hback : w.givesBack? (.openRegion name size) = some cx) :
    w.opens (.openRegion name size) = true := by
  obtain ⟨hcx, hregion, -⟩ := of_givesBack?_openRegion hback
  rw [opens, hcx, hregion]
  rfl

/-- As long as few chunks were created, a pool is not full when one is given
back. -/
theorem Conserved.turnedAway_eq_nil (h : w.Conserved []) (hsound : w.Sound)
    (hfew : w.sending.pool.created ≤ SendPool.maxWaiting) {name : String} {cx : SendContext}
    (hcx : w.sending.contexts.get? name = some cx) :
    cx.turnedAway w.sending.pool = [] := by
  rw [SendContext.turnedAway]
  split
  next => rfl
  next hfull =>
      have hlength := h.chunks.length_eq
      have hmine := (SendContext.holdings_perm hsound.room.distinct hcx).length_eq
      rw [List.append_nil, List.length_append, hmine, List.length_append, List.length_range,
        ← SendPool.pooled] at hlength
      exact List.eq_nil_of_length_eq_zero (by omega)

/-- When nobody holds a buffer, no waiting chunk has to wait longer. -/
theorem Sound.isReusable_of_quiet (h : w.Sound) (hquiet : w.Quiet) {name : String}
    {cx : SendContext} (hcx : w.sending.contexts.get? name = some cx) {chunk : Nat}
    (hchunk : chunk ∈ (cx.drop w.sending.pool).waiting) :
    (cx.drop w.sending.pool).isReusable chunk = true := by
  have hmine := SendContext.holdings_perm h.room.distinct hcx
  have howned : chunk ∈ holdings w.sending.contexts ++ w.sending.pool.waiting := by
    have hgiven := (SendContext.waiting_drop w.sending.pool cx).subset
      (List.mem_append_left _ hchunk)
    rcases List.mem_append.mp hgiven with hcurrent | hwaiting
    · exact List.mem_append_left _ (hmine.symm.subset (List.mem_append_left _ hcurrent))
    · exact List.mem_append_right _ hwaiting
  rw [SendPool.isReusable, SendContext.chunks_drop]
  exact (h.isReusable_iff (h.room.owned.lt_created chunk howned)).mpr (.inl (hquiet chunk))

/-- A chunk is created only if each other context holds one at most. -/
theorem Conserved.created_lt_length (h : w.Conserved []) (hsound : w.Sound)
    (hfew : w.sending.pool.created ≤ SendPool.maxWaiting) (hquiet : w.Quiet) {name : String}
    {cx : SendContext} (hcx : w.sending.contexts.get? name = some cx)
    (hnone : ∀ i ∈ (cx.drop w.sending.pool).waiting,
      (cx.drop w.sending.pool).isReusable i = false) :
    w.sending.pool.created < w.sending.contexts.length := by
  -- nothing waits, not even the chunk of this context, so it held none
  have hempty : (cx.drop w.sending.pool).waiting = [] := by
    refine List.eq_nil_iff_forall_not_mem.mpr fun i hi => ?_
    have hreusable := hsound.isReusable_of_quiet hquiet hcx hi
    rw [hnone i hi] at hreusable
    cases hreusable
  have hgiven := (SendContext.waiting_drop w.sending.pool cx).length_eq
  rw [hempty, h.turnedAway_eq_nil hsound hfew hcx, List.length_append, List.length_append] at hgiven
  have hcreated := h.chunks.length_eq
  have hmine := (SendContext.holdings_perm hsound.room.distinct hcx).length_eq
  have hcontexts := (Table.perm_erase hsound.room.distinct hcx).length_eq
  have hothers : (holdings (w.sending.contexts.erase name)).length ≤
      (w.sending.contexts.erase name).length := List.length_filterMap_le _ _
  rw [List.append_nil, List.length_append, List.length_range] at hcreated
  rw [List.length_append] at hmine
  rw [List.length_cons] at hcontexts
  rw [List.length_nil, Nat.add_zero] at hgiven
  omega

theorem Conserved.created_circulation (h : w.Conserved []) (hsound : w.Sound)
    (hfew : w.sending.pool.created ≤ SendPool.maxWaiting)
    (hquiet : w.opens action = true → w.Quiet) (hcirculation : w.Circulation action w') :
    w'.sending.pool.created ≤ max w.sending.pool.created w.sending.contexts.length ∧
      w.discards action = [] := by
  rw [discards]
  cases hcirculation with
  | stays hback hheld hwaiting hcreated =>
      rw [hback, hcreated]
      exact ⟨Nat.le_max_left _ _, rfl⟩
  | back hback hcx hheld hwaiting hcreated =>
      rw [hback, hcreated]
      exact ⟨Nat.le_max_left _ _, h.turnedAway_eq_nil hsound hfew hcx⟩
  | @exchange name size chunk cx haction hback hcx hheld hout =>
      subst haction
      have hsame := cx.created_drop w.sending.pool
      rw [hback]
      refine ⟨?_, h.turnedAway_eq_nil hsound hfew hcx⟩
      cases hout with
      | new hnone hwaiting hcreated =>
          rw [hcreated, hsame]
          exact Nat.le_trans (h.created_lt_length hsound hfew (hquiet (opens_of_givesBack? hback))
            hcx hnone) (Nat.le_max_right _ _)
      | reused hfound hreusable hlast hwaiting hcreated =>
          rw [hcreated, hsame]
          exact Nat.le_max_left _ _

theorem Conserved.created_le {n : Nat} (h : w.Conserved []) (hsound : w.Sound)
    (hcreated : w.sending.pool.created ≤ n) (hn : n ≤ SendPool.maxWaiting) (steps : List Step)
    (hpeak : w.peak steps ≤ n) (hquiet : w.QuietWhenOpening steps) :
    (w.run steps).sending.pool.created ≤ n := by
  induction steps generalizing w with
  | nil => exact hcreated
  | cons first rest ih =>
      -- nothing was turned away so far, which is what keeps the pool from being full
      have hcirculation := hsound.circulation first
      obtain ⟨hfirst, hnone⟩ := h.created_circulation hsound (Nat.le_trans hcreated hn) hquiet.1
        hcirculation
      have hnext := h.circulation hsound hcirculation
      rw [hnone] at hnext
      rw [peak] at hpeak
      exact ih hnext (hsound.step first) (by omega) (by omega) hquiet.2

end Counting

/-! ## All runs -/

/-- A context opens a region for which it needs another chunk, and after it gave
its own back none that waits may be written again. -/
def Lacks (w : Writing) (action : Step) : Prop :=
  ∃ name size cx, action = .openRegion name size ∧
    w.sending.contexts.get? name = some cx ∧ w.regions name = none ∧
    cx.takes size w.sending.pool = true ∧
    ∀ i ∈ (cx.drop w.sending.pool).waiting, (cx.drop w.sending.pool).isReusable i = false

/-- What contexts and pool do with chunks in a state, when `gone` were turned
away before. -/
structure Circulates (w : Writing) (gone : List Nat) : Prop where
  /-- Every chunk is at one place, and the pool is not too large. -/
  conserved : w.Conserved gone
  /-- So the places have as many chunks as were created. -/
  created_eq : w.sending.pool.created = w.sending.pool.pooled + w.holders + gone.length
  /-- A chunk may be written again if no held buffer is a range of it, or if
  none but empty buffers were cut off it. -/
  isReusable_iff : ∀ chunk, chunk < w.sending.pool.created →
    (w.sending.pool.isReusable chunk = true ↔
      w.Unreferred chunk ∨ w.sending.pool.front chunk = 0)
  /-- A context that needs another chunk gives its own back first. It gets the
  last waiting one that may be written again, or a new one if there is none. -/
  handsOut : ∀ name size cx, w.sending.contexts.get? name = some cx → w.regions name = none →
    size ≤ SendChunk.capacity → cx.takes size w.sending.pool = true →
    ∃ chunk,
      (w.step (.openRegion name size)).sending.contexts.get? name = some ⟨some chunk⟩ ∧
        (cx.drop w.sending.pool).HandsOut chunk (w.step (.openRegion name size)).sending.pool
  /-- A chunk is created only if the context that asks finds none. -/
  creates : ∀ action, (w.step action).sending.pool.created ≠ w.sending.pool.created →
    w.Lacks action ∧ (w.step action).sending.pool.created = w.sending.pool.created + 1

section Runs

variable {w : Writing} {gone : List Nat}

theorem Sound.creates (h : w.Sound) {action : Step}
    (hchanged : (w.step action).sending.pool.created ≠ w.sending.pool.created) :
    w.Lacks action ∧ (w.step action).sending.pool.created = w.sending.pool.created + 1 := by
  cases h.circulation action with
  | stays hback hheld hwaiting hcreated => exact absurd hcreated hchanged
  | back hback hcx hheld hwaiting hcreated => exact absurd hcreated hchanged
  | @exchange name size chunk cx haction hback hcx hheld hout =>
      subst haction
      have hsame := cx.created_drop w.sending.pool
      cases hout with
      | new hnone hwaiting hcreated =>
          rw [hsame] at hcreated
          obtain ⟨-, hregion, htakes⟩ := of_givesBack?_openRegion hback
          exact ⟨⟨name, size, cx, rfl, hcx, hregion, htakes, hnone⟩, hcreated⟩
      | reused hfound hreusable hlast hwaiting hcreated =>
          exact absurd (hcreated.trans hsame) hchanged

theorem Conserved.circulates (h : w.Conserved gone) (hsound : w.Sound) : w.Circulates gone where
  conserved := h
  created_eq := h.created_eq
  isReusable_iff _ hlt := hsound.isReusable_iff hlt
  handsOut name size cx hcx hregion hsize htakes := by
    obtain ⟨chunk, hcontexts, hout⟩ := openRegion_handsOut hcx hregion hsize htakes
    refine ⟨chunk, ?_, hout⟩
    rw [hcontexts]
    exact Table.get?_insert_self _ _ _
  creates _ hcreated := hsound.creates hcreated

end Runs

/-- After every run no chunk is lost, and if nobody ever held a buffer when a
region was opened, no more chunks were created than there were contexts at
once. -/
theorem circulates_run (steps : List Step) :
    (empty.run steps).Circulates (empty.discarded steps) ∧
      (empty.peak steps ≤ SendPool.maxWaiting → empty.QuietWhenOpening steps →
        (empty.run steps).sending.pool.created ≤ empty.peak steps) := by
  have hconserved := conserved_empty.run sound_empty steps
  refine ⟨hconserved.circulates (sound_empty.run steps), fun hpeak hquiet => ?_⟩
  exact conserved_empty.created_le sound_empty (Nat.zero_le _) hpeak steps (Nat.le_refl _) hquiet

/-- Two contexts write one after the other, and a third one comes when the
first has ended. -/
def relay : List Step :=
  [.context "a", .openRegion "a" 8, .close "a" 3 "x", .dropBuffer "x",
    .context "b", .openRegion "b" 5, .abandon "b", .dropContext "a",
    .context "c", .openRegion "c" 6000, .close "c" 6000 "y"]

theorem circulates_run_relay :
    empty.peak relay ≤ SendPool.maxWaiting ∧ empty.QuietWhenOpening relay ∧
      (empty.run relay).sending.pool.created ≤ empty.peak relay := by
  have hpeak : empty.peak relay ≤ SendPool.maxWaiting := by decide +kernel
  have hquiet : empty.QuietWhenOpening relay :=
    ⟨nofun, fun _ => quiet_of_buffers_eq_nil (by decide +kernel), nofun, nofun, nofun,
      fun _ => quiet_of_buffers_eq_nil (by decide +kernel), nofun, nofun, nofun,
      fun _ => quiet_of_buffers_eq_nil (by decide +kernel), nofun, trivial⟩
  exact ⟨hpeak, hquiet, (circulates_run relay).2 hpeak hquiet⟩

example : SendPool.maxWaiting = 256 := rfl

end Writing

end SessionEngine

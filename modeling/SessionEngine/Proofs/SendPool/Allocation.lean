import SessionEngine.Proofs.SendPool.Accounts

/-!
# Regions are cut off one after the other

What a context can allocate goes by what it did itself: the free bytes of its
chunk are all but those that its buffers were cut from, and a region is zero
when it is opened, whatever the chunk held before. `Granted` says what opening
a region does, `Allocates` has all the laws of one context, and
`allocated_run` says that they hold after every run.
-/

namespace SessionEngine

namespace Writing

/-- How many bytes can still be cut off the chunk of a context. -/
def free (name : String) (w : Writing) : Nat :=
  (w.sending.contexts.get? name).elim 0 (SendContext.free w.sending.pool)

/-- The bytes that are in the open region of a context. -/
def shown? (name : String) (w : Writing) : Option Bytes :=
  (w.opened? name).map fun (chunk, size) =>
    w.sending.pool.read (.range chunk (w.sending.pool.front chunk) size)

/-- Whether a step closes the open region of a context or gives it back. -/
def Step.finishes (name : String) : Step → Bool
  | .close other _ _ => other = name
  | .abandon other => other = name
  | _ => false

/-- A context opened a region of some size between the two states. -/
structure Granted (w w' : Writing) (name : String) (cx : SendContext) (size : Nat) : Prop where
  /-- The region has as many bytes as were asked for, and all of them are zero. -/
  shown : w'.shown? name = some (List.replicate size 0)
  /-- The chunk was kept if enough of it was free, and only then. -/
  kept_iff : (w'.sending.contexts.get? name = some cx ∧ w'.free name = w.free name) ↔
    (cx.current.isSome = true ∧ size ≤ w.free name)
  /-- Then the pool was not asked. -/
  kept : cx.current.isSome = true → size ≤ w.free name →
    w'.sending.pool.waiting = w.sending.pool.waiting ∧
      w'.sending.pool.created = w.sending.pool.created
  /-- Otherwise the pool got the chunk back and handed out one that is all free. -/
  taken : ¬ (cx.current.isSome = true ∧ size ≤ w.free name) →
    w'.sending.contexts.get? name = some ⟨some (cx.drop w.sending.pool).pop.1⟩ ∧
      w'.sending.pool.waiting = (cx.drop w.sending.pool).pop.2.waiting ∧
      w'.sending.pool.created = (cx.drop w.sending.pool).pop.2.created ∧
      w'.free name = SendChunk.capacity

/-- What opening, closing and giving back a region of a context do in a state,
by what the context did before. -/
structure Allocates (w : Writing) (l : Ledger) (name : String) : Prop where
  /-- Free is what no buffer was cut from since the chunk was taken. -/
  free_eq : ∀ chunk, w.sending.contexts.get? name = some ⟨some chunk⟩ →
    ∃ lengths, l.cuts? name = some lengths ∧ w.free name + lengths.sum = SendChunk.capacity
  /-- The open region shows what was written into it. -/
  shown_eq : w.shown? name = l.region? name
  /-- A region can be opened just if it fits into a chunk. -/
  opens_iff : ∀ cx size, w.sending.contexts.get? name = some cx →
    ((cx.open? size w.sending.pool).isSome = true ↔ size ≤ SendChunk.capacity)
  /-- Asking for a longer one changes nothing. -/
  refused : ∀ size, SendChunk.capacity < size → w.step (.openRegion name size) = w
  granted : ∀ cx size, w.sending.contexts.get? name = some cx → w.regions name = none →
    size ≤ SendChunk.capacity → w.Granted (w.step (.openRegion name size)) name cx size
  /-- Closing cuts off the first bytes of what was written, no more than the
  region has, and leaves so many fewer free. -/
  closed : ∀ size, w.regions name = some size →
    ∃ bytes, l.region? name = some bytes ∧ bytes.length = size ∧
      ∀ length buffer,
        (w.step (.close name length buffer)).sending.read? buffer =
            some (bytes.take (min length size)) ∧
          (w.step (.close name length buffer)).free name + min length size = w.free name
  /-- Giving a region back leaves as many bytes free as there were when it was
  opened, whatever happened in between. -/
  abandoned : ∀ cx size between, w.sending.contexts.get? name = some cx →
    w.regions name = none → size ≤ SendChunk.capacity →
    (∀ action ∈ between, action.finishes name = false) →
      (((w.step (.openRegion name size)).run between).step (.abandon name)).free name =
        (w.step (.openRegion name size)).free name

section Runs

variable {w : Writing} {l : Ledger} {name : String} {cx : SendContext} {account : Option Account}
  {chunk size : Nat} {c : SendChunk} {lengths : List Nat} {bytes : Bytes}

theorem free_of_get? (hcx : w.sending.contexts.get? name = some ⟨some chunk⟩)
    (hc : w.sending.pool.chunks[chunk]? = some c) :
    w.free name = SendChunk.capacity - c.used := by
  rw [free, hcx]
  exact SendContext.free_of_getElem? hc

theorem Tallies.free_eq (h : w.Tallies name account) :
    w.free name =
      (account.bind Account.cuts).elim 0 fun lengths => SendChunk.capacity - lengths.sum := by
  cases h with
  | absent hcx =>
      rw [free, hcx]
      rfl
  | idle hcx =>
      rw [free, hcx]
      rfl
  | filling hcx hc hused =>
      rw [free_of_get? hcx hc, hused]
      rfl

theorem Working.shown_eq (h : w.Working name chunk size c lengths bytes) :
    w.shown? name = some bytes := by
  have hfront : w.sending.pool.front chunk = c.used := by
    rw [SendPool.front, h.chunk_eq]
    rfl
  rw [shown?, opened?_of_get? h.held, h.open_eq, Option.map_some, Option.map_some]
  dsimp only
  rw [hfront, SendPool.read, h.chunk_eq]
  exact congrArg some h.region_eq

theorem Sound.shown_eq (h : w.Sound) (hmine : w.Tallies name account) :
    w.shown? name = account.bind Account.region := by
  cases hopened : w.opened? name with
  | none =>
      rw [shown?, hopened]
      cases haccount : account with
      | none => rfl
      | some a => exact (hmine.region_eq_none hopened haccount).symm
  | some place =>
      obtain ⟨c, lengths, bytes, rfl, hworking⟩ := h.working hmine hopened
      exact hworking.shown_eq

/-- The region is zero, and what is free of its chunk stays free for now. -/
theorem Sound.opened_shown_free (h : w.Sound) (hcx : w.sending.contexts.get? name = some cx)
    (hregion : w.regions name = none) (hsize : size ≤ SendChunk.capacity)
    (hc : (cx.supply size w.sending.pool).2.chunks[(cx.supply size w.sending.pool).1]? = some c)
    (hwf : c.WellFormed) :
    (w.step (.openRegion name size)).shown? name = some (List.replicate size 0) ∧
      (w.step (.openRegion name size)).free name = SendChunk.capacity - c.used := by
  have hused : c.used = [c.used].sum := List.sum_singleton.symm
  have hmine := tallies_openRegion hcx hregion hsize ⟨c, hc, hwf, hused⟩
  refine ⟨(h.step _).shown_eq hmine, ?_⟩
  rw [hmine.free_eq, Option.bind_some, Option.elim_some, ← hused]

theorem Sound.granted_of_not_takes (h : w.Sound) (hcx : w.sending.contexts.get? name = some cx)
    (hregion : w.regions name = none) (hsize : size ≤ SendChunk.capacity)
    (htakes : cx.takes size w.sending.pool = false) :
    w.Granted (w.step (.openRegion name size)) name cx size := by
  obtain ⟨chunk, hcurrent, -, hsupply⟩ := SendContext.supply_of_not_takes htakes
  obtain rfl : cx = ⟨some chunk⟩ := congrArg SendContext.mk hcurrent
  obtain ⟨c, hc⟩ := SendPool.exists_of_lt_created (h.room.current_lt_created hcx chunk rfl)
  have hfree := free_of_get? hcx hc
  have hroom : (some chunk).isSome = true ∧ size ≤ w.free name := by
    rw [hfree, ← SendContext.free_of_getElem? hc]
    exact SendContext.takes_eq_false_iff.mp htakes
  obtain ⟨hshown, hafter⟩ := h.opened_shown_free hcx hregion hsize (by rw [hsupply]; exact hc)
    (h.room.chunks chunk c hc)
  have hstep := step_openRegion hcx hregion hsize
  rw [hsupply] at hstep
  refine ⟨hshown, ⟨fun _ => hroom, fun _ => ⟨?_, hafter.trans hfree.symm⟩⟩, fun _ _ => ?_,
    fun hnot => absurd hroom hnot⟩
  · rw [hstep]
    exact Table.get?_insert_self _ _ _
  · rw [hstep]
    exact ⟨rfl, SendPool.created_modify _ _ _⟩

theorem Sound.granted_of_takes (h : w.Sound) (hcx : w.sending.contexts.get? name = some cx)
    (hregion : w.regions name = none) (hsize : size ≤ SendChunk.capacity)
    (htakes : cx.takes size w.sending.pool = true) :
    w.Granted (w.step (.openRegion name size)) name cx size := by
  have hfree : w.free name = cx.free w.sending.pool := by
    rw [free, hcx]
    rfl
  have hshort : ¬ (cx.current.isSome = true ∧ size ≤ w.free name) := by
    rw [hfree, ← SendContext.takes_eq_false_iff, htakes]
    exact Bool.noConfusion
  obtain ⟨c, hc, hwf, hunused⟩ := SendContext.unused_of_takes h.room.chunks htakes
  obtain ⟨hshown, hafter⟩ := h.opened_shown_free hcx hregion hsize hc hwf
  rw [hunused, Nat.sub_zero] at hafter
  have hstep := step_openRegion hcx hregion hsize
  rw [SendContext.supply_of_takes htakes] at hstep
  have hheld : (w.step (.openRegion name size)).sending.contexts.get? name =
      some ⟨some (cx.drop w.sending.pool).pop.1⟩ := by
    rw [hstep]
    exact Table.get?_insert_self _ _ _
  refine ⟨hshown, ⟨?_, fun hroom => absurd hroom hshort⟩, fun hheld hroom => absurd ⟨hheld, hroom⟩
    hshort, fun _ => ⟨hheld, ?_, ?_, hafter⟩⟩
  · -- a chunk that is all free is not one of which too little is free
    rintro ⟨hsame, hsamefree⟩
    refine ⟨?_, by omega⟩
    rw [← Option.some.inj (hheld.symm.trans hsame)]
    rfl
  · rw [hstep]
    rfl
  · rw [hstep]
    exact SendPool.created_modify _ _ _

theorem Sound.granted (h : w.Sound) (hcx : w.sending.contexts.get? name = some cx)
    (hregion : w.regions name = none) (hsize : size ≤ SendChunk.capacity) :
    w.Granted (w.step (.openRegion name size)) name cx size := by
  cases htakes : cx.takes size w.sending.pool with
  | false => exact h.granted_of_not_takes hcx hregion hsize htakes
  | true => exact h.granted_of_takes hcx hregion hsize htakes

theorem Working.closed (hworking : w.Working name chunk size c lengths bytes) (length : Nat)
    (buffer : String) :
    (w.step (.close name length buffer)).sending.read? buffer =
        some (bytes.take (min length size)) ∧
      (w.step (.close name length buffer)).free name + min length size = w.free name := by
  have hopened : w.opened? name = some (chunk, size) := by
    rw [opened?_of_get? hworking.held, hworking.open_eq]
    rfl
  obtain ⟨o, hstep⟩ := step_close hopened hworking.chunk_eq length buffer
  obtain ⟨hpool, hcontexts⟩ := (w.cutOff name chunk (min length size)).sending.recounted_keep buffer
    (.range chunk c.used (min length size))
  obtain ⟨c', hc', hused, hmemory⟩ := hpool.leaves chunk _
    (SendPool.getElem?_modify_self hworking.chunk_eq)
  rw [hstep]
  constructor
  · have hnamed : ((w.cutOff name chunk (min length size)).keep buffer
        (.range chunk c.used (min length size)) o).sending.buffers.get? buffer =
          some (.range chunk c.used (min length size)) := Table.get?_insert_self _ _ _
    rw [Sending.read?, hnamed, Option.map_some, SendPool.read]
    refine congrArg some ?_
    rw [keep, hc']
    dsimp only
    rw [hmemory, ← hworking.region_eq, SendChunk.region, List.take_take,
      Nat.min_eq_left (Nat.min_le_right length size)]
    rfl
  · have hroom := hworking.room
    have hheld := (congrArg (Table.get? name) hcontexts).trans hworking.held
    have hcut : (c.cut (min length size)).used = c.used + min length size := rfl
    rw [free_of_get? hworking.held hworking.chunk_eq, free_of_get? hheld hc', hused, hcut]
    omega

/-- The steps of other contexts. -/
theorem Ledger.open_update {other : String} (hopen : (l.region? name).isSome = true)
    (hother : name ≠ other) (account : Option Account) :
    Ledger.cuts? (Function.update l other account) name = l.cuts? name ∧
      (Ledger.region? (Function.update l other account) name).isSome = true := by
  have hsame : Function.update l other account name = l name := Function.update_of_ne hother _ _
  rw [Ledger.cuts?, Ledger.region?, hsame]
  exact ⟨rfl, hopen⟩

theorem Ledger.open_change (hopen : (l.region? name).isSome = true) (other : String)
    {f : Account → Account}
    (hf : ∀ a, a.region.isSome = true → (f a).cuts = a.cuts ∧ (f a).region.isSome = true) :
    (l.change other f).cuts? name = l.cuts? name ∧
      ((l.change other f).region? name).isSome = true := by
  by_cases hother : name = other
  · subst hother
    cases hl : l name with
    | none =>
        rw [Ledger.region?, hl] at hopen
        cases hopen
    | some a =>
        rw [Ledger.region?, hl] at hopen
        rw [Ledger.cuts?, Ledger.cuts?, Ledger.region?, Ledger.change, Function.update_self, hl]
        exact hf a hopen
  · exact Ledger.open_update hopen hother _

/-- As long as a region is open, its context cuts nothing off. -/
theorem Ledger.step_of_not_finishes {action : Step} (hopen : (l.region? name).isSome = true)
    (hgoes : action.finishes name = false) :
    (l.step action).cuts? name = l.cuts? name ∧
      ((l.step action).region? name).isSome = true := by
  have hne : ∀ other, (l.region? other).isNone = true → name ≠ other := by
    rintro other hnone rfl
    rw [Option.isNone_iff_eq_none.mp hnone] at hopen
    cases hopen
  cases action with
  | context other =>
      rw [Ledger.step]
      split
      next hnone => exact Ledger.open_update hopen (hne other hnone) _
      next => exact ⟨rfl, hopen⟩
  | dropContext other =>
      rw [Ledger.step]
      split
      next hnone => exact Ledger.open_update hopen (hne other hnone) _
      next => exact ⟨rfl, hopen⟩
  | openRegion other size =>
      refine Ledger.open_change hopen other fun a ha => ?_
      rw [Account.openRegion, Option.isNone_eq_false_iff.mpr ha]
      exact ⟨rfl, ha⟩
  | write other offset bytes =>
      refine Ledger.open_change hopen other fun a ha => ?_
      rw [Account.write]
      split
      next region hregion =>
          split
          · exact ⟨rfl, rfl⟩
          · exact ⟨rfl, ha⟩
      next => exact ⟨rfl, ha⟩
  | close other length buffer =>
      exact Ledger.open_update hopen (Ne.symm (of_decide_eq_false hgoes)) _
  | abandon other => exact Ledger.open_update hopen (Ne.symm (of_decide_eq_false hgoes)) _
  | copy source buffer => exact ⟨rfl, hopen⟩
  | own buffer bytes => exact ⟨rfl, hopen⟩
  | dropBuffer buffer => exact ⟨rfl, hopen⟩

theorem Ledger.foldl_step_of_not_finishes {steps : List Step}
    (hopen : (l.region? name).isSome = true)
    (hgoes : ∀ action ∈ steps, action.finishes name = false) :
    (steps.foldl Ledger.step l).cuts? name = l.cuts? name := by
  induction steps generalizing l with
  | nil => rfl
  | cons first rest ih =>
      obtain ⟨hfirst, hrest⟩ := List.forall_mem_cons.mp hgoes
      obtain ⟨hcuts, hstill⟩ := Ledger.step_of_not_finishes hopen hfirst
      exact (ih hstill hrest).trans hcuts

theorem Tally.free_eq (h : w.Tally l) (name : String) :
    w.free name = (l.cuts? name).elim 0 fun lengths => SendChunk.capacity - lengths.sum :=
  (h name).free_eq

theorem Sound.allocates (h : w.Sound) (htally : w.Tally l) (name : String) :
    w.Allocates l name where
  free_eq chunk hcx := by
    have hmine := htally name
    rw [Ledger.cuts?]
    generalize l name = account at hmine ⊢
    cases hmine with
    | absent hcx' => cases hcx.symm.trans hcx'
    | idle hcx' => cases hcx.symm.trans hcx'
    | @filling chunk' c' lengths region hcx' hc' hused =>
        have hle := (h.room.chunks chunk' c' hc').used_le
        refine ⟨lengths, rfl, ?_⟩
        rw [free_of_get? hcx' hc']
        omega
  shown_eq := h.shown_eq (htally name)
  opens_iff cx size hcx := by
    rw [SendContext.open?]
    split
    next hsize => exact ⟨fun _ => hsize, fun _ => rfl⟩
    next hsize => exact ⟨Bool.noConfusion, fun hfits => absurd hfits hsize⟩
  refused size hsize := step_openRegion_of_capacity_lt hsize name
  granted cx size hcx hregion hsize := h.granted hcx hregion hsize
  closed size hregion := by
    obtain ⟨chunk, c, hcx, hc, hroom⟩ := h.room.fits name size hregion
    have hopened : w.opened? name = some (chunk, size) := by
      rw [opened?_of_get? hcx, hregion]
      rfl
    obtain ⟨c, lengths, bytes, haccount, hworking⟩ := h.working (htally name) hopened
    refine ⟨bytes, ?_, hworking.length_eq, hworking.closed⟩
    rw [Ledger.region?, haccount]
    rfl
  abandoned cx size between hcx hregion hsize hgoes := by
    have hopened := h.tally_step htally (.openRegion name size)
    have hbetween := (h.step (.openRegion name size)).tally_run hopened between
    have hshown := (h.step _).shown_eq (hopened name)
    rw [(h.granted hcx hregion hsize).shown] at hshown
    have hstill := Ledger.foldl_step_of_not_finishes
      (Option.isSome_iff_exists.mpr ⟨_, hshown.symm⟩) hgoes
    rw [(hbetween.abandon name).free_eq, hopened.free_eq, ← hstill, Ledger.cuts?, Ledger.cuts?,
      Ledger.change, Function.update_self, Option.bind_map]
    rfl

end Runs

/-- After every run, what a context can allocate goes by what it did itself. -/
theorem allocated_run (steps : List Step) (name : String) :
    (empty.run steps).Allocates (Ledger.after steps) name :=
  (sound_empty.run steps).allocates (sound_empty.tally_run tally_empty steps) name

example : SendChunk.capacity = 6000 := rfl

end Writing

end SessionEngine

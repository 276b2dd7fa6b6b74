import Mathlib.Algebra.Ring.Nat
import SessionEngine.Proofs.SendPool.Moves

/-!
# The account of a context

An `Account` follows the steps of one context without looking at the pool: it
remembers the lengths of the buffers that were cut off since a chunk was
taken, and what was written into the open region. A `Ledger` has the accounts
of all contexts.

`Tally` says that the pool agrees with the ledger: what was cut off a chunk is
used, and the region shows what was written, zero bytes where nothing was.
Each step keeps the tally of its own context by what it does, and of the
others because it leaves them alone, so every run keeps it
(`Sound.tally_run`).
-/

namespace SessionEngine

/-! ## Regions of a chunk -/

namespace SendChunk

variable {c : SendChunk}

theorem WellFormed.used_le_length (h : c.WellFormed) : c.used ≤ c.memory.length := by
  rw [h.length_memory]
  exact h.used_le

theorem region_clear (h : c.WellFormed) (size : Nat) :
    (c.clear size).region size = List.replicate size 0 := by
  have hread := Bytes.take_drop_overwrite c.used (List.replicate size 0) c.memory h.used_le_length
  rw [List.length_replicate] at hread
  exact hread

/-- What is written into a region shows there. -/
theorem region_writeAt (h : c.WellFormed) {size at_ : Nat} {bytes : Bytes}
    (hroom : c.used + size ≤ capacity) (hfit : at_ + bytes.length ≤ size) :
    (c.writeAt at_ bytes).region size = Bytes.overwrite at_ bytes (c.region size) := by
  have hlength : size ≤ (c.memory.drop c.used).length := by
    rw [List.length_drop, h.length_memory]
    omega
  show ((Bytes.overwrite (c.used + at_) bytes c.memory).drop c.used).take size = _
  rw [Bytes.drop_overwrite_behind bytes h.used_le_length,
    Bytes.take_overwrite_within bytes hfit (Nat.le_trans hfit hlength), region]

end SendChunk

namespace Writing

/-! ## What a context was asked to do -/

/-- What a context did with its chunk, by its own steps alone. -/
structure Account where
  /-- The lengths of the buffers that were cut off the chunk since it was taken,
  none before the first one was. -/
  cuts : Option (List Nat)
  /-- The bytes of the open region. -/
  region : Option Bytes

namespace Account

/-- Before the first region. -/
def new : Account := ⟨none, none⟩

/-- The buffers that were cut off the chunk of a region of this size: none if
the rest of the last chunk was too short. -/
def carried (size : Nat) (a : Account) : List Nat :=
  match a.cuts with
  | some lengths => if size ≤ SendChunk.capacity - lengths.sum then lengths else []
  | none => []

/-- A region begins with zero bytes only. -/
def openRegion (size : Nat) (a : Account) : Account :=
  if a.region.isNone && decide (size ≤ SendChunk.capacity) then
    ⟨some (a.carried size), some (List.replicate size 0)⟩
  else a

theorem openRegion_of_region_eq_none {size : Nat} {a : Account} (hregion : a.region = none)
    (hsize : size ≤ SendChunk.capacity) :
    a.openRegion size = ⟨some (a.carried size), some (List.replicate size 0)⟩ := by
  rw [openRegion, hregion, decide_eq_true hsize]
  rfl

/-- What is written into the open region, if it fits. -/
def write (offset : Nat) (bytes : Bytes) (a : Account) : Account :=
  match a.region with
  | some region =>
      if offset + bytes.length ≤ region.length then
        { a with region := some (Bytes.overwrite offset bytes region) }
      else a
  | none => a

/-- No more is cut off than the region has. -/
def close (length : Nat) (a : Account) : Account :=
  match a.region with
  | some region => ⟨a.cuts.map (· ++ [min length region.length]), none⟩
  | none => a

/-- The region is gone, and nothing was cut off. -/
def abandon (a : Account) : Account := { a with region := none }

end Account

/-- The accounts of the contexts that there are. -/
abbrev Ledger := String → Option Account

namespace Ledger

def region? (l : Ledger) (name : String) : Option Bytes := (l name).bind Account.region

/-- The lengths of the buffers that a context cut off its chunk. -/
def cuts? (l : Ledger) (name : String) : Option (List Nat) := (l name).bind Account.cuts

def change (name : String) (f : Account → Account) (l : Ledger) : Ledger :=
  Function.update l name ((l name).map f)

theorem change_eq_self {l : Ledger} {name : String} {f : Account → Account}
    (hf : ∀ a, l name = some a → f a = a) : l.change name f = l := by
  rw [change, Function.update_eq_self_iff]
  cases hl : l name with
  | none => rfl
  | some a => rw [Option.map_some, hf a hl]

def step (l : Ledger) : Step → Ledger
  | .context name =>
      if (l.region? name).isNone then Function.update l name (some .new) else l
  | .dropContext name => if (l.region? name).isNone then Function.update l name none else l
  | .openRegion name size => l.change name (Account.openRegion size)
  | .write name offset bytes => l.change name (Account.write offset bytes)
  | .close name length _ => l.change name (Account.close length)
  | .abandon name => l.change name Account.abandon
  | .copy _ _ => l
  | .own _ _ => l
  | .dropBuffer _ => l

/-- Follows steps one after another, from where there is no context. -/
def after (steps : List Step) : Ledger := steps.foldl step fun _ => none

end Ledger

/-! ## The pool agrees with the accounts -/

/-- A context agrees with its account: what was cut off its chunk is used, and
its open region shows what was written. -/
inductive Tallies (w : Writing) (name : String) : Option Account → Prop where
  | absent (hcx : w.sending.contexts.get? name = none) (hregion : w.regions name = none) :
      Tallies w name none
  | idle (hcx : w.sending.contexts.get? name = some .new) (hregion : w.regions name = none) :
      Tallies w name (some .new)
  | filling {chunk : Nat} {c : SendChunk} {lengths : List Nat} {region : Option Bytes}
      (hcx : w.sending.contexts.get? name = some ⟨some chunk⟩)
      (hc : w.sending.pool.chunks[chunk]? = some c) (hused : c.used = lengths.sum)
      (hregion : w.regions name = region.map List.length)
      (hbytes : ∀ bytes ∈ region, c.region bytes.length = bytes) :
      Tallies w name (some ⟨some lengths, region⟩)

def Tally (w : Writing) (l : Ledger) : Prop := ∀ name, w.Tallies name (l name)

section Tallying

variable {w w' : Writing} {l : Ledger} {name other : String} {account : Option Account}
  {a : Account} {chunk size : Nat} {c : SendChunk}

theorem tally_empty : empty.Tally fun _ => none := fun _ => .absent rfl rfl

theorem Tallies.regions (h : w.Tallies name account) :
    w.regions name = (account.bind Account.region).map List.length := by
  cases h with
  | absent hcx hregion => exact hregion
  | idle hcx hregion => exact hregion
  | filling hcx hc hused hregion hbytes => exact hregion

theorem Tally.isNone_regions (h : w.Tally l) (name : String) :
    (w.regions name).isNone = (l.region? name).isNone := by
  rw [(h name).regions, Option.isNone_map, Ledger.region?]

/-- Nobody else changes a chunk that a context holds. -/
theorem Tallies.frame (h : w.Tallies name account) (hframe : w.LeavesContext w' name) :
    w'.Tallies name account := by
  cases h with
  | absent hcx hregion =>
      exact .absent (hframe.contexts_eq.trans hcx) (hframe.regions_eq.trans hregion)
  | idle hcx hregion =>
      exact .idle (hframe.contexts_eq.trans hcx) (hframe.regions_eq.trans hregion)
  | filling hcx hc hused hregion hbytes =>
      obtain ⟨c', hc', hused', hmemory⟩ := hframe.leaves _ hcx _ hc
      refine .filling (hframe.contexts_eq.trans hcx) hc' (hused'.trans hused)
        (hframe.regions_eq.trans hregion) fun bytes hmem => ?_
      rw [SendChunk.region, hused', hmemory]
      exact hbytes bytes hmem

theorem Tally.update (h : w.Tally l) (hmine : w'.Tallies name account)
    (hothers : ∀ other, other ≠ name → w.LeavesContext w' other) :
    w'.Tally (Function.update l name account) := by
  intro other
  by_cases hother : other = name
  · subst hother
    rw [Function.update_self]
    exact hmine
  · rw [Function.update_of_ne hother]
    exact (h other).frame (hothers other hother)

theorem Tally.change (h : w.Tally l) {f : Account → Account}
    (hmine : w'.Tallies name ((l name).map f))
    (hothers : ∀ other, other ≠ name → w.LeavesContext w' other) :
    w'.Tally (l.change name f) :=
  h.update hmine hothers

theorem Tally.recounted (h : w.Tally l)
    (hpool : w.sending.pool.Recounted w'.sending.pool)
    (hcontexts : w'.sending.contexts = w.sending.contexts) (hregions : w'.regions = w.regions) :
    w'.Tally l := fun name =>
  (h name).frame ⟨by rw [hcontexts], by rw [hregions], fun chunk _ => hpool.leaves chunk⟩

theorem Tally.keep (h : w.Tally l) (buffer : String) (b : SendBuffer) (o : Origin) :
    (w.keep buffer b o).Tally l := by
  obtain ⟨hpool, hcontexts⟩ := w.sending.recounted_keep buffer b
  exact h.recounted hpool hcontexts rfl

end Tallying

/-! ## One step -/

section Steps

variable {w w' : Writing} {l : Ledger} {name other : String} {cx : SendContext}
  {account : Option Account} {chunk size : Nat}

/-- The region that was opened is zero, whatever the chunk held before. -/
theorem tallies_openRegion (hcx : w.sending.contexts.get? name = some cx)
    (hregion : w.regions name = none) (hsize : size ≤ SendChunk.capacity) {lengths : List Nat}
    (hsupplied : ∃ c, (cx.supply size w.sending.pool).2.chunks[
        (cx.supply size w.sending.pool).1]? = some c ∧ c.WellFormed ∧ c.used = lengths.sum) :
    (w.step (.openRegion name size)).Tallies name
      (some ⟨some lengths, some (List.replicate size 0)⟩) := by
  obtain ⟨c, hc, hwf, hused⟩ := hsupplied
  rw [step_openRegion hcx hregion hsize]
  refine .filling (Table.get?_insert_self _ _ _) (SendPool.getElem?_modify_self hc) hused ?_ ?_
  · rw [Option.map_some, List.length_replicate]
    exact Function.update_self _ _ _
  · intro bytes hbytes
    obtain rfl := Option.some.inj hbytes
    rw [List.length_replicate]
    exact SendChunk.region_clear hwf size

/-- A chunk that was kept has used what was cut off it, and one that was taken
has used nothing. -/
theorem Sound.exists_supply (h : w.Sound) {c : SendChunk} {lengths : List Nat}
    (hc : w.sending.pool.chunks[chunk]? = some c) (hused : c.used = lengths.sum) (size : Nat)
    (region : Option Bytes) :
    ∃ c', (SendContext.supply size w.sending.pool ⟨some chunk⟩).2.chunks[
        (SendContext.supply size w.sending.pool ⟨some chunk⟩).1]? = some c' ∧ c'.WellFormed ∧
      c'.used = (Account.carried size ⟨some lengths, region⟩).sum := by
  have hfree := SendContext.free_of_getElem? hc
  rw [hused] at hfree
  rw [Account.carried]
  dsimp only
  split
  next hroom =>
      have htakes : SendContext.takes size w.sending.pool ⟨some chunk⟩ = false := by
        rw [SendContext.takes, hfree]
        simpa using hroom
      obtain ⟨mine, hmine, -, hsupply⟩ := SendContext.supply_of_not_takes htakes
      cases hmine
      rw [hsupply]
      exact ⟨c, hc, h.room.chunks chunk c hc, hused⟩
  next hroom =>
      refine SendContext.unused_of_takes h.room.chunks ?_
      rw [SendContext.takes, hfree]
      simpa using hroom

theorem Sound.tally_openRegion (h : w.Sound) (htally : w.Tally l) (name : String) (size : Nat) :
    (w.step (.openRegion name size)).Tally (l.change name (Account.openRegion size)) := by
  by_cases hsize : size ≤ SendChunk.capacity
  swap
  · rw [step_openRegion_of_capacity_lt (Nat.not_le.mp hsize), Ledger.change_eq_self]
    · exact htally
    · intro a _
      simp [Account.openRegion, hsize]
  refine htally.change ?_ fun other hother => h.leavesContext_openRegion hother size
  -- only the account of the context that opens is left, and it decides by its cases
  have hmine := htally name
  generalize l name = account at hmine ⊢
  cases hmine with
  | absent hcx hregion =>
      rw [step_openRegion_of_get?_eq_none hcx]
      exact .absent hcx hregion
  | idle hcx hregion =>
      rw [Option.map_some, Account.openRegion_of_region_eq_none rfl hsize]
      exact tallies_openRegion hcx hregion hsize (SendContext.unused_of_takes h.room.chunks rfl)
  | @filling chunk c lengths region hcx hc hused hregion hbytes =>
      cases region with
      | some bytes =>
          rw [step_openRegion_of_isSome (by rw [hregion]; rfl)]
          exact .filling hcx hc hused hregion hbytes
      | none =>
          rw [Option.map_some, Account.openRegion_of_region_eq_none rfl hsize]
          exact tallies_openRegion hcx hregion hsize (h.exists_supply hc hused size none)

/-- An open region with its chunk and its account. -/
structure Working (w : Writing) (name : String) (chunk size : Nat) (c : SendChunk)
    (lengths : List Nat) (bytes : Bytes) : Prop where
  held : w.sending.contexts.get? name = some ⟨some chunk⟩
  open_eq : w.regions name = some size
  chunk_eq : w.sending.pool.chunks[chunk]? = some c
  wellFormed : c.WellFormed
  room : c.used + size ≤ SendChunk.capacity
  used_eq : c.used = lengths.sum
  length_eq : bytes.length = size
  region_eq : c.region size = bytes

theorem Sound.working (h : w.Sound) (hmine : w.Tallies name account)
    (hopened : w.opened? name = some (chunk, size)) :
    ∃ c lengths bytes, account = some ⟨some lengths, some bytes⟩ ∧
      w.Working name chunk size c lengths bytes := by
  obtain ⟨c, hcx, hc, hroom⟩ := h.opened hopened
  rw [opened?_of_get? hcx, Option.map_eq_some_iff] at hopened
  obtain ⟨size', hsize, heq⟩ := hopened
  cases heq
  cases hmine with
  | absent hcx' => cases hcx.symm.trans hcx'
  | idle hcx' => cases hcx.symm.trans hcx'
  | @filling chunk' c' lengths region hcx' hc' hused hregion hbytes =>
      cases hcx.symm.trans hcx'
      obtain rfl := Option.some.inj (hc.symm.trans hc')
      obtain ⟨bytes, rfl, hlength⟩ := Option.map_eq_some_iff.mp (hregion.symm.trans hsize)
      have hwf := h.room.chunks chunk c hc
      refine ⟨c, lengths, bytes, rfl, hcx, hsize, hc, hwf, hroom, hused, hlength, ?_⟩
      rw [← hlength]
      exact hbytes bytes rfl

theorem Tallies.region_eq_none (h : w.Tallies name account) (hopened : w.opened? name = none)
    {a : Account} (ha : account = some a) : a.region = none := by
  cases h with
  | absent hcx hregion => cases ha
  | idle hcx hregion =>
      cases ha
      rfl
  | filling hcx hc hused hregion hbytes =>
      cases ha
      rw [opened?_of_get? hcx, hregion, Option.map_map, Option.map_eq_none_iff] at hopened
      exact hopened

theorem Sound.tally_write (h : w.Sound) (htally : w.Tally l) (name : String) (offset : Nat)
    (bytes : Bytes) :
    (w.step (.write name offset bytes)).Tally (l.change name (Account.write offset bytes)) := by
  cases hopened : w.opened? name with
  | none =>
      rw [Ledger.change_eq_self]
      · rw [Writing.step, hopened]
        exact htally
      · intro a ha
        rw [Account.write, (htally name).region_eq_none hopened ha]
  | some place =>
      obtain ⟨chunk, size⟩ := place
      obtain ⟨c, lengths, region, haccount, hworking⟩ := h.working (htally name) hopened
      rw [Writing.step, hopened]
      dsimp only
      split
      next hfit =>
          refine htally.change ?_ fun other hother =>
            h.leavesContext_modify hworking.held hother rfl rfl rfl
          have hfit' : offset + bytes.length ≤ region.length := by
            rw [hworking.length_eq]
            exact hfit
          have hlength := Bytes.length_overwrite offset bytes region hfit'
          rw [haccount, Option.map_some, Account.write]
          dsimp only
          rw [if_pos hfit']
          refine .filling hworking.held (SendPool.getElem?_modify_self hworking.chunk_eq)
            hworking.used_eq ?_ ?_
          · rw [Option.map_some, hlength, hworking.length_eq]
            exact hworking.open_eq
          · intro shown hshown
            obtain rfl := Option.some.inj hshown
            rw [hlength, hworking.length_eq,
              SendChunk.region_writeAt hworking.wellFormed hworking.room hfit, hworking.region_eq]
      next hfit =>
          rw [Ledger.change_eq_self]
          · exact htally
          · intro a ha
            cases haccount.symm.trans ha
            rw [Account.write]
            dsimp only
            rw [if_neg (by rw [hworking.length_eq]; exact hfit)]

theorem tallies_cutOff {c : SendChunk} {lengths : List Nat}
    (hcx : w.sending.contexts.get? name = some ⟨some chunk⟩)
    (hc : w.sending.pool.chunks[chunk]? = some c) (hused : c.used = lengths.sum) (length : Nat) :
    (w.cutOff name chunk length).Tallies name (some ⟨some (lengths ++ [length]), none⟩) := by
  refine .filling hcx (SendPool.getElem?_modify_self hc) ?_ (Function.update_self _ _ _) ?_
  · rw [List.sum_append, List.sum_singleton, ← hused]
    rfl
  · intro bytes hbytes
    cases hbytes

theorem Sound.tally_close (h : w.Sound) (htally : w.Tally l) (name : String) (length : Nat)
    (buffer : String) :
    (w.step (.close name length buffer)).Tally (l.change name (Account.close length)) := by
  cases hopened : w.opened? name with
  | none =>
      rw [Ledger.change_eq_self]
      · rw [Writing.step, hopened]
        exact htally
      · intro a ha
        rw [Account.close, (htally name).region_eq_none hopened ha]
  | some place =>
      obtain ⟨chunk, size⟩ := place
      obtain ⟨c, lengths, region, haccount, hworking⟩ := h.working (htally name) hopened
      obtain ⟨o, hstep⟩ := step_close hopened hworking.chunk_eq length buffer
      rw [hstep]
      -- letting go of the buffer that had the name recounts its chunk and no more
      refine Tally.keep (htally.change ?_ fun other hother => ?_) buffer _ o
      · rw [haccount, Option.map_some, Account.close]
        dsimp only
        rw [hworking.length_eq]
        exact tallies_cutOff hworking.held hworking.chunk_eq hworking.used_eq _
      · exact h.leavesContext_modify hworking.held hother rfl rfl (Function.update_of_ne hother _ _)

theorem Tally.abandon (htally : w.Tally l) (name : String) :
    (w.step (.abandon name)).Tally (l.change name Account.abandon) := by
  have hregions : (w.step (.abandon name)).regions name = none := Function.update_self _ _ _
  refine htally.change ?_ fun other hother =>
    ⟨rfl, Function.update_of_ne hother _ _, fun i _ => SendPool.leaves_of_chunks_eq rfl i⟩
  have hmine := htally name
  generalize l name = account at hmine ⊢
  cases hmine with
  | absent hcx => exact .absent hcx hregions
  | idle hcx => exact .idle hcx hregions
  | filling hcx hc hused =>
      refine .filling hcx hc hused hregions fun bytes hbytes => ?_
      cases hbytes

theorem Tally.dropContext (htally : w.Tally l) (hregion : w.regions name = none) :
    { w with sending := w.sending.dropContext name }.Tally (Function.update l name none) :=
  htally.update (.absent Sending.get?_dropContext_self hregion) fun _ hother =>
    ⟨Sending.get?_dropContext_of_ne hother, rfl,
      fun i _ => SendPool.leaves_of_chunks_eq (w.sending.chunks_dropContext name) i⟩

theorem Tally.context (htally : w.Tally l) (hregion : w.regions name = none) :
    { w with sending := w.sending.context name }.Tally (Function.update l name (some .new)) :=
  htally.update (.idle (Table.get?_insert_self _ _ _) hregion) fun _ hother =>
    ⟨(Table.get?_insert_of_ne hother _ _).trans (Sending.get?_dropContext_of_ne hother), rfl,
      fun i _ => SendPool.leaves_of_chunks_eq (w.sending.chunks_dropContext name) i⟩

theorem Sound.tally_step (h : w.Sound) (htally : w.Tally l) (action : Step) :
    (w.step action).Tally (l.step action) := by
  cases action with
  | context name =>
      rw [Writing.step, Ledger.step, htally.isNone_regions]
      split
      next hregion =>
          rw [← htally.isNone_regions] at hregion
          exact htally.context (Option.isNone_iff_eq_none.mp hregion)
      next => exact htally
  | dropContext name =>
      rw [Writing.step, Ledger.step, htally.isNone_regions]
      split
      next hregion =>
          rw [← htally.isNone_regions] at hregion
          exact htally.dropContext (Option.isNone_iff_eq_none.mp hregion)
      next => exact htally
  | openRegion name size => exact h.tally_openRegion htally name size
  | write name offset bytes => exact h.tally_write htally name offset bytes
  | close name length buffer => exact h.tally_close htally name length buffer
  | abandon name => exact htally.abandon name
  | copy source buffer =>
      rw [Writing.step]
      split
      next held o hheld ho =>
          have hretained : { w with
              sending := { w.sending with pool := w.sending.pool.retain held } }.Tally l :=
            htally.recounted (SendPool.recounted_retain _ _) rfl rfl
          exact hretained.keep buffer held o
      next => exact htally
  | own buffer bytes =>
      have hmade : { w with cuts := w.cuts + 1 }.Tally l := htally.recounted (.refl _) rfl rfl
      exact hmade.keep buffer (.own bytes) _
  | dropBuffer buffer =>
      obtain ⟨hpool, hcontexts⟩ := w.sending.recounted_dropBuffer buffer
      exact htally.recounted hpool hcontexts rfl

theorem Sound.tally_run (h : w.Sound) (htally : w.Tally l) (steps : List Step) :
    (w.run steps).Tally (steps.foldl Ledger.step l) := by
  induction steps generalizing w l with
  | nil => exact htally
  | cons first rest ih => exact ih (h.step first) (h.tally_step htally first)

end Steps

end Writing

end SessionEngine

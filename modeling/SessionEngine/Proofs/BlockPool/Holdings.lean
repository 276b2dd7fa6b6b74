import Mathlib.Data.List.Induction
import SessionEngine.Proofs.BlockPool
import SessionEngine.Proofs.BlockPool.Classes
import SessionEngine.Proofs.Table

/-!
# Where the blocks are

Every block of a class that was ever created is free, in use or lost. What a
step does with the blocks of one class is one of three things (`Change`):
nothing but losing one, handing one out, or taking one back. From this follow
the books of a class (`Booked`), how many blocks it creates at most (`peak`),
and that its free memory is a stack (`LastReleased`).
-/

namespace SessionEngine

namespace Holdings

open BlockPool (ofSize? classFor? sizesOf Supplies)

/-! ## Runs -/

inductive Step where
  | allocate (name : String) (length : Nat)
  | write (name : String) (offset : Nat) (bytes : Bytes)
  | release (name : String)
  /-- A block is lost without being released. -/
  | drop (name : String)
deriving DecidableEq

/-- Whether there is a block under a name with these bytes in the part that was
asked for. -/
def covers (name : String) (offset : Nat) (bytes : Bytes) (s : Holdings) : Bool :=
  (s.held.get? name).any fun b => offset + bytes.length ≤ b.length

/-- The holdings after a step. Nobody writes outside of what was asked for. -/
def step (s : Holdings) : Step → Holdings
  | .allocate name length => (s.allocate name length).2
  | .write name offset bytes =>
      if s.covers name offset bytes then s.write name offset bytes else s
  | .release name => s.release name
  | .drop name => s.drop name

def run (s : Holdings) (steps : List Step) : Holdings := steps.foldl step s

theorem run_cons (s : Holdings) (first : Step) (rest : List Step) :
    s.run (first :: rest) = (s.step first).run rest := rfl

theorem run_append (s : Holdings) (before after : List Step) :
    s.run (before ++ after) = (s.run before).run after :=
  List.foldl_append

/-- The block that is lost in a step: dropped, or replaced under its name. -/
def loses? (s : Holdings) : Step → Option Block
  | .allocate name _ | .drop name => s.held.get? name
  | .write .. | .release _ => none

/-- How many blocks of a size are lost in a step. -/
def losses (size : Nat) (s : Holdings) (action : Step) : Nat :=
  ((s.loses? action).any (Block.isOf size)).toNat

/-- How many blocks of a size are lost in a run. -/
def lost (size : Nat) (s : Holdings) : List Step → Nat
  | [] => 0
  | first :: rest => s.losses size first + (s.step first).lost size rest

/-- How many blocks of a size are in use. -/
def outstanding (size : Nat) (s : Holdings) : Nat :=
  List.countP (fun entry => entry.2.isOf size) s.held

/-- The largest number of blocks of a size that are in use at once. -/
def peak (size : Nat) (s : Holdings) : List Step → Nat
  | [] => s.outstanding size
  | first :: rest => max (s.outstanding size) ((s.step first).peak size rest)

theorem lost_append (size : Nat) (s : Holdings) (before after : List Step) :
    s.lost size (before ++ after) = s.lost size before + (s.run before).lost size after := by
  induction before generalizing s with
  | nil => exact (Nat.zero_add _).symm
  | cons first rest ih => rw [List.cons_append, lost, lost, ih, run_cons, Nat.add_assoc]

theorem peak_append (size : Nat) (s : Holdings) (before after : List Step) :
    s.peak size (before ++ after) = max (s.peak size before) ((s.run before).peak size after) := by
  induction before generalizing s with
  | nil =>
      refine (Nat.max_eq_right ?_).symm
      cases after with
      | nil => exact Nat.le_refl _
      | cons first rest => exact Nat.le_max_left _ _
  | cons first rest ih => rw [List.cons_append, peak, peak, ih, run_cons, Nat.max_assoc]

/-- The free memory of a size, last released first. -/
def free (size : Nat) (s : Holdings) : List Bytes :=
  (ofSize? size s.pool).elim [] SizeClass.free

def created (size : Nat) (s : Holdings) : Nat :=
  (ofSize? size s.pool).elim 0 SizeClass.created

/-! ## Blocks and classes fit -/

/-- A block holds what was asked for, and is as long as its class says, if it
has one. -/
structure Fits (b : Block) : Prop where
  length_le : b.length ≤ b.memory.length
  length_eq : ∀ size, b.sizeClass = some size → b.memory.length = size
  mem_sizes : ∀ size, b.sizeClass = some size → size ∈ BlockPool.sizes

/-- All memory of a class has its size, and all blocks fit. -/
structure Fitting (s : Holdings) : Prop where
  distinct : s.held.Distinct
  sizes_eq : sizesOf s.pool = BlockPool.sizes
  length_free : ∀ size, ∀ memory ∈ s.free size, memory.length = size
  fits : ∀ entry ∈ s.held, Fits entry.2

/-! ## What a step does with the blocks of a size -/

/-- What a step does with the blocks of a size. -/
inductive Change (size : Nat) (s : Holdings) (action : Step) (s' : Holdings) : Prop where
  /-- At most one is lost. -/
  | stays (hclass : ofSize? size s'.pool = ofSize? size s.pool)
      (hheld : s'.outstanding size + s.losses size action = s.outstanding size)
  /-- One is handed out. -/
  | taken {c : SizeClass} (hbefore : ofSize? size s.pool = some c)
      (hafter : ofSize? size s'.pool = some c.take.2)
      (hheld : s'.outstanding size + s.losses size action = s.outstanding size + 1)
  /-- One is taken back. -/
  | given {c : SizeClass} {name : String} {b : Block} (haction : action = .release name)
      (hb : s.held.get? name = some b) (hsize : b.sizeClass = some size)
      (hbefore : ofSize? size s.pool = some c)
      (hafter : ofSize? size s'.pool = some { c with free := b.memory :: c.free })
      (hheld : s'.outstanding size + 1 = s.outstanding size)

section Steps

variable {s : Holdings} {size : Nat} {name : String}

theorem ofSize?_isSome (h : s.Fitting) (hsize : size ∈ BlockPool.sizes) :
    ∃ c, ofSize? size s.pool = some c := by
  rw [← h.sizes_eq] at hsize
  obtain ⟨c, hc, rfl⟩ := List.mem_map.mp hsize
  refine ⟨c, BlockPool.ofSize?_of_mem ?_ hc⟩
  rw [h.sizes_eq]
  exact BlockPool.ascending_sizes

/-- Putting a block under a name loses the one that is there. -/
theorem outstanding_insert (h : s.Fitting) (size : Nat) (pool : BlockPool) (name : String)
    (b : Block) :
    outstanding size ⟨pool, s.held.insert name b⟩ +
        ((s.held.get? name).any (Block.isOf size)).toNat =
      s.outstanding size + (b.isOf size).toNat := by
  have hinsert := Table.countP_insert h.distinct name b fun entry => entry.2.isOf size
  have herase := Table.countP_erase h.distinct name fun entry => entry.2.isOf size
  rw [outstanding, outstanding, hinsert, herase]
  exact Nat.add_right_comm _ _ _

theorem outstanding_erase (h : s.Fitting) (size : Nat) (pool : BlockPool) (name : String) :
    outstanding size ⟨pool, s.held.erase name⟩ +
        ((s.held.get? name).any (Block.isOf size)).toNat = s.outstanding size :=
  (Table.countP_erase h.distinct name fun entry => entry.2.isOf size).symm

theorem isOf_allocate_of_none {length : Nat} {pool : BlockPool}
    (hclass : classFor? length pool = none) (size : Nat) :
    (BlockPool.allocate length pool).1.isOf size = false := by
  rw [BlockPool.allocate_of_none hclass]
  rfl

theorem isOf_allocate {length : Nat} {pool : BlockPool} {c : SizeClass}
    (hclass : classFor? length pool = some c) (size : Nat) :
    (BlockPool.allocate length pool).1.isOf size = decide (c.size = size) := by
  rw [BlockPool.fst_allocate hclass, Block.isOf]
  exact decide_eq_decide.mpr Option.some_inj

theorem Fitting.change_allocate (h : s.Fitting) (size : Nat) (name : String) (length : Nat) :
    s.Change size (.allocate name length) (s.step (.allocate name length)) := by
  have hheld : (s.step (.allocate name length)).outstanding size +
      s.losses size (.allocate name length) =
        s.outstanding size + ((BlockPool.allocate length s.pool).1.isOf size).toNat :=
    outstanding_insert h size _ name _
  cases hclass : classFor? length s.pool with
  | none =>
      rw [isOf_allocate_of_none hclass] at hheld
      refine .stays ?_ hheld
      exact congrArg (fun r => ofSize? size r.2) (BlockPool.allocate_of_none hclass)
  | some c =>
      have hafter := BlockPool.ofSize?_allocate hclass size
      rw [isOf_allocate hclass] at hheld
      by_cases hsize : size = c.size
      · subst hsize
        rw [if_pos rfl] at hafter
        rw [decide_eq_true rfl] at hheld
        exact .taken (BlockPool.ofSize?_of_classFor? hclass) hafter hheld
      · rw [if_neg hsize] at hafter
        rw [decide_eq_false (Ne.symm hsize)] at hheld
        exact .stays hafter hheld

theorem Fitting.change_write (h : s.Fitting) (size : Nat) (name : String) (offset : Nat)
    (bytes : Bytes) :
    s.Change size (.write name offset bytes) (s.step (.write name offset bytes)) := by
  rw [step]
  split
  · rw [Holdings.write]
    split
    next b hb =>
        have hheld := outstanding_insert h size s.pool name (b.write offset bytes)
        rw [hb] at hheld
        exact .stays rfl (Nat.add_right_cancel hheld)
    next => exact .stays rfl rfl
  · exact .stays rfl rfl

theorem Fitting.change_release (h : s.Fitting) (size : Nat) (name : String) :
    s.Change size (.release name) (s.step (.release name)) := by
  rw [step, Holdings.release]
  cases hb : s.held.get? name with
  | none => exact .stays rfl rfl
  | some b =>
      have hheld := outstanding_erase h size (BlockPool.release b s.pool) name
      rw [hb, Option.any_some] at hheld
      cases hblock : b.sizeClass with
      | none =>
          rw [Block.isOf, hblock] at hheld
          exact .stays (congrArg (ofSize? size) (BlockPool.release_of_none hblock s.pool)) hheld
      | some given =>
          have hafter := BlockPool.ofSize?_put given b.memory s.pool size
          rw [← BlockPool.release_of_some hblock] at hafter
          by_cases hsize : size = given
          · subst hsize
            have hmine := (h.fits _ (Table.mem_of_get? hb)).mem_sizes size hblock
            obtain ⟨c, hc⟩ := ofSize?_isSome h hmine
            rw [if_pos rfl, hc, Option.map_some] at hafter
            rw [Block.isOf, hblock, decide_eq_true rfl] at hheld
            exact .given rfl hb hblock hc hafter hheld
          · rw [if_neg hsize] at hafter
            rw [Block.isOf, hblock, decide_eq_false fun heq => hsize (Option.some.inj heq).symm]
              at hheld
            exact .stays hafter hheld

theorem Fitting.change (h : s.Fitting) (size : Nat) (action : Step) :
    s.Change size action (s.step action) := by
  cases action with
  | allocate name length => exact h.change_allocate size name length
  | write name offset bytes => exact h.change_write size name offset bytes
  | release name => exact h.change_release size name
  | drop name => exact .stays rfl (outstanding_erase h size s.pool name)

/-! ## Blocks keep fitting -/

theorem free_of_ofSize? {c : SizeClass} (hc : ofSize? size s.pool = some c) :
    s.free size = c.free := by
  rw [free, hc]
  rfl

theorem created_of_ofSize? {c : SizeClass} (hc : ofSize? size s.pool = some c) :
    s.created size = c.created := by
  rw [created, hc]
  rfl

/-- A block that is handed out holds what was asked for. -/
theorem Fitting.fits_allocate (h : s.Fitting) (length : Nat) :
    Fits (BlockPool.allocate length s.pool).1 := by
  have hsupplies := BlockPool.allocate_supplies length s.pool
  generalize (BlockPool.allocate length s.pool).1 = b, (BlockPool.allocate length s.pool).2 = pool'
    at hsupplies
  have hserving {c : SizeClass} (hclass : classFor? length s.pool = some c) :
      length ≤ c.size ∧ c.size ∈ BlockPool.sizes := by
    refine ⟨BlockPool.le_size_of_classFor? hclass, ?_⟩
    rw [← h.sizes_eq]
    exact List.mem_map_of_mem (List.mem_of_find?_eq_some hclass)
  cases hsupplies with
  | alone hnone =>
      exact ⟨Nat.le_of_eq List.length_replicate.symm, nofun, nofun⟩
  | @reused c memory rest pool' hclass hfree hafter hother =>
      have hlength : memory.length = c.size := by
        refine h.length_free c.size memory ?_
        rw [free_of_ofSize? (BlockPool.ofSize?_of_classFor? hclass), hfree]
        exact List.mem_cons_self
      obtain ⟨hle, hmem⟩ := hserving hclass
      refine ⟨Nat.le_trans hle (Nat.le_of_eq hlength.symm), ?_, ?_⟩
      · rintro size hsize
        exact hlength.trans (Option.some.inj hsize)
      · rintro size hsize
        exact Option.some.inj hsize ▸ hmem
  | @created c pool' hclass hfree hafter hother =>
      obtain ⟨hle, hmem⟩ := hserving hclass
      refine ⟨Nat.le_trans hle (Nat.le_of_eq List.length_replicate.symm), ?_, ?_⟩
      · rintro size hsize
        exact List.length_replicate.trans (Option.some.inj hsize)
      · rintro size hsize
        exact Option.some.inj hsize ▸ hmem

theorem Fits.write {b : Block} (hb : Fits b) {offset : Nat} {bytes : Bytes}
    (hwithin : offset + bytes.length ≤ b.length) : Fits (b.write offset bytes) := by
  have hlength : (b.write offset bytes).memory.length = b.memory.length :=
    Bytes.length_overwrite _ _ _ (Nat.le_trans hwithin hb.length_le)
  refine ⟨?_, fun size hsize => hlength.trans (hb.length_eq size hsize), hb.mem_sizes⟩
  rw [hlength]
  exact hb.length_le

theorem fits_insert {held : Table String Block} (hheld : ∀ entry ∈ held, Fits entry.2) {b : Block}
    (hb : Fits b) (name : String) : ∀ entry ∈ held.insert name b, Fits entry.2 := by
  intro entry hmem
  rcases Table.mem_insert hmem with rfl | hold
  · exact hb
  · exact hheld entry hold

theorem fits_erase {held : Table String Block} (hheld : ∀ entry ∈ held, Fits entry.2)
    (name : String) : ∀ entry ∈ held.erase name, Fits entry.2 :=
  fun entry hmem => hheld entry (List.mem_filter.mp hmem).1

theorem Fitting.held_step (h : s.Fitting) (action : Step) :
    (s.step action).held.Distinct ∧ sizesOf (s.step action).pool = BlockPool.sizes ∧
      ∀ entry ∈ (s.step action).held, Fits entry.2 := by
  cases action with
  | allocate name length =>
      exact ⟨h.distinct.insert name _, (BlockPool.sizesOf_allocate length s.pool).trans h.sizes_eq,
        fits_insert h.fits (h.fits_allocate length) name⟩
  | write name offset bytes =>
      rw [step]
      split
      next hcovers =>
          rw [Holdings.write]
          split
          next b hb =>
              rw [covers, hb, Option.any_some, decide_eq_true_iff] at hcovers
              have hfits := (h.fits _ (Table.mem_of_get? hb)).write hcovers
              exact ⟨h.distinct.insert name _, h.sizes_eq, fits_insert h.fits hfits name⟩
          next => exact ⟨h.distinct, h.sizes_eq, h.fits⟩
      next => exact ⟨h.distinct, h.sizes_eq, h.fits⟩
  | release name =>
      rw [step, Holdings.release]
      split
      next b _ =>
          exact ⟨h.distinct.erase name, (BlockPool.sizesOf_release b s.pool).trans h.sizes_eq,
            fits_erase h.fits name⟩
      next => exact ⟨h.distinct, h.sizes_eq, h.fits⟩
  | drop name => exact ⟨h.distinct.erase name, h.sizes_eq, fits_erase h.fits name⟩

theorem Fitting.step (h : s.Fitting) (action : Step) : (s.step action).Fitting := by
  obtain ⟨hdistinct, hsizes, hfits⟩ := h.held_step action
  refine ⟨hdistinct, hsizes, fun size memory hmem => ?_, hfits⟩
  cases h.change size action with
  | stays hclass hheld =>
      rw [free, hclass] at hmem
      exact h.length_free size memory hmem
  | @taken c hbefore hafter hheld =>
      refine h.length_free size memory ?_
      rw [free_of_ofSize? hafter] at hmem
      rw [free_of_ofSize? hbefore]
      rw [SizeClass.take] at hmem
      split at hmem
      next first rest hfree =>
          rw [hfree]
          exact List.mem_cons_of_mem _ hmem
      next => exact hmem
  | @given c name b haction hb hsize hbefore hafter hheld =>
      rw [free_of_ofSize? hafter] at hmem
      rcases List.mem_cons.mp hmem with rfl | hold
      · exact (h.fits _ (Table.mem_of_get? hb)).length_eq size hsize
      · refine h.length_free size memory ?_
        rw [free_of_ofSize? hbefore]
        exact hold

theorem free_empty (size : Nat) : empty.free size = [] := by
  cases hc : ofSize? size empty.pool with
  | none => rw [free, hc, Option.elim_none]
  | some c =>
      obtain ⟨n, -, rfl⟩ := List.mem_map.mp (List.mem_of_find?_eq_some hc)
      exact free_of_ofSize? hc

theorem created_empty (size : Nat) : empty.created size = 0 := by
  cases hc : ofSize? size empty.pool with
  | none => rw [created, hc, Option.elim_none]
  | some c =>
      obtain ⟨n, -, rfl⟩ := List.mem_map.mp (List.mem_of_find?_eq_some hc)
      exact created_of_ofSize? hc

theorem fitting_empty : empty.Fitting := by
  refine ⟨Table.distinct_nil, BlockPool.sizesOf_empty, fun size memory hmem => ?_, nofun⟩
  rw [free_empty] at hmem
  cases hmem

theorem Fitting.run (h : s.Fitting) (steps : List Step) : (s.run steps).Fitting := by
  induction steps generalizing s with
  | nil => exact h
  | cons first rest ih => exact ih (h.step first)

/-! ## The books of a size -/

/-- Every block of a size that was created is free, in use or among those that
were lost before. -/
def Booked (size lost : Nat) (s : Holdings) : Prop :=
  s.created size = (s.free size).length + s.outstanding size + lost

/-- A step that hands out a block takes a free one, or creates one if there is
none. -/
theorem take_cases (c : SizeClass) :
    (c.free = [] ∧ c.take.2.free = [] ∧ c.take.2.created = c.created + 1) ∨
      (c.free.length = c.take.2.free.length + 1 ∧ c.take.2.created = c.created) := by
  rw [SizeClass.take]
  split
  next first rest hfree => exact .inr ⟨congrArg List.length hfree, rfl⟩
  next hfree => exact .inl ⟨hfree, hfree, rfl⟩

theorem Booked.change {s' : Holdings} {action : Step} {before : Nat} (h : s.Booked size before)
    (hchange : s.Change size action s') : s'.Booked size (before + s.losses size action) := by
  rw [Booked] at h ⊢
  cases hchange with
  | stays hclass hheld =>
      rw [created, free, hclass, ← created, ← free, h]
      omega
  | @taken c hbefore hafter hheld =>
      rw [created_of_ofSize? hbefore, free_of_ofSize? hbefore] at h
      rw [created_of_ofSize? hafter, free_of_ofSize? hafter]
      rcases take_cases c with ⟨hnone, hfree, hcreated⟩ | ⟨hfree, hcreated⟩
      · rw [hnone] at h
        rw [hfree, hcreated, h]
        omega
      · rw [hcreated, h]
        omega
  | @given c name b haction hb hsize hbefore hafter hheld =>
      subst haction
      rw [created_of_ofSize? hbefore, free_of_ofSize? hbefore] at h
      rw [created_of_ofSize? hafter, free_of_ofSize? hafter, List.length_cons]
      show c.created = _
      rw [h, losses, loses?, Option.any_none, Bool.toNat_false]
      omega

theorem Booked.run {before : Nat} (h : s.Booked size before) (hfitting : s.Fitting)
    (steps : List Step) : (s.run steps).Booked size (before + s.lost size steps) := by
  induction steps generalizing s before with
  | nil => exact h
  | cons first rest ih =>
      rw [lost, ← Nat.add_assoc]
      exact ih (h.change (hfitting.change size first)) (hfitting.step first)

theorem Change.created_cases {s' : Holdings} {action : Step} (h : s.Change size action s') :
    s'.created size = s.created size ∨
      (s'.created size = s.created size + 1 ∧ s'.free size = []) := by
  cases h with
  | stays hclass hheld =>
      refine .inl ?_
      rw [created, hclass, ← created]
  | @taken c hbefore hafter hheld =>
      rw [created_of_ofSize? hbefore, created_of_ofSize? hafter, free_of_ofSize? hafter]
      rcases take_cases c with ⟨-, hfree, hcreated⟩ | ⟨-, hcreated⟩
      · exact .inr ⟨hcreated, hfree⟩
      · exact .inl hcreated
  | @given c name b haction hb hsize hbefore hafter hheld =>
      refine .inl ?_
      rw [created_of_ofSize? hbefore, created_of_ofSize? hafter]

/-- As long as none is lost, one is created only if all others are in use. -/
theorem Booked.created_change {s' : Holdings} {action : Step} (h : s.Booked size 0)
    (hnone : s.losses size action = 0) (hchange : s.Change size action s') :
    s'.created size = max (s.created size) (s'.outstanding size) := by
  have hafter := h.change hchange
  rw [hnone, Booked] at hafter
  rw [Booked] at h
  rcases hchange.created_cases with hsame | ⟨hmore, hfree⟩
  · omega
  · rw [hfree, List.length_nil] at hafter
    omega

theorem outstanding_le_peak (s : Holdings) (size : Nat) (steps : List Step) :
    s.outstanding size ≤ s.peak size steps := by
  cases steps with
  | nil => exact Nat.le_refl _
  | cons first rest => exact Nat.le_max_left _ _

theorem Booked.created_run (h : s.Booked size 0) (hfitting : s.Fitting) (steps : List Step)
    (hnone : s.lost size steps = 0) :
    (s.run steps).created size = max (s.created size) (s.peak size steps) := by
  induction steps generalizing s with
  | nil =>
      have hin : s.outstanding size ≤ s.created size := by
        rw [Booked] at h
        omega
      exact (Nat.max_eq_left hin).symm
  | cons first rest ih =>
      obtain ⟨hfirst, hrest⟩ := Nat.add_eq_zero_iff.mp hnone
      have hchange := hfitting.change size first
      have hbooked := h.change hchange
      rw [hfirst] at hbooked
      have hcreated := h.created_change hfirst hchange
      have hpeak := outstanding_le_peak (s.step first) size rest
      rw [run_cons, ih hbooked (hfitting.step first) hrest, hcreated, peak]
      rw [Booked] at h
      omega

end Steps

/-! ## Free memory is a stack -/

/-- After some steps `memory` is free and `rest` is below it: it was given back
when `rest` was free, and since then nothing but what came later was taken. -/
def LastReleased (steps : List Step) (size : Nat) (memory : Bytes) (rest : List Bytes) : Prop :=
  ∃ before name b after, steps = before ++ .release name :: after ∧
    (empty.run before).held.get? name = some b ∧ b.sizeClass = some size ∧ b.memory = memory ∧
    (empty.run before).free size = rest ∧
    ∀ part, part <+: after →
      memory :: rest <:+ (empty.run (before ++ .release name :: part)).free size

theorem LastReleased.concat {steps : List Step} {size : Nat} {memory : Bytes} {rest : List Bytes}
    (h : LastReleased steps size memory rest) {action : Step}
    (hstill : memory :: rest <:+ (empty.run (steps ++ [action])).free size) :
    LastReleased (steps ++ [action]) size memory rest := by
  obtain ⟨before, name, b, after, rfl, hb, hsize, hmemory, hrest, hkept⟩ := h
  refine ⟨before, name, b, after ++ [action], ?_, hb, hsize, hmemory, hrest, fun part hpart => ?_⟩
  · rw [List.append_assoc, List.cons_append]
  · rcases List.prefix_concat_iff.mp hpart with rfl | hearlier
    · rw [List.append_assoc, List.cons_append] at hstill
      exact hstill
    · exact hkept part hearlier

/-- Whatever memory is free was given back when what is below it was free. -/
theorem lastReleased_of_suffix {steps : List Step} {size : Nat} {memory : Bytes}
    {rest : List Bytes} (h : memory :: rest <:+ (empty.run steps).free size) :
    LastReleased steps size memory rest := by
  induction steps using List.reverseRecOn generalizing memory rest with
  | nil =>
      rw [run, List.foldl_nil, free_empty] at h
      exact absurd (List.suffix_nil.mp h) (List.cons_ne_nil _ _)
  | append_singleton steps action ih =>
      have hfitting := fitting_empty.run steps
      have hstep : empty.run (steps ++ [action]) = (empty.run steps).step action :=
        run_append empty steps [action]
      have hbelow : memory :: rest <:+ (empty.run steps).free size →
          LastReleased (steps ++ [action]) size memory rest := fun hold => (ih hold).concat h
      rw [hstep] at h
      cases hfitting.change size action with
      | stays hclass hheld =>
          rw [free, hclass, ← free] at h
          exact hbelow h
      | @taken c hbefore hafter hheld =>
          rw [free_of_ofSize? hafter, SizeClass.take] at h
          rw [free_of_ofSize? hbefore] at hbelow
          split at h
          next first others hfree =>
              rw [hfree] at hbelow
              exact hbelow (h.trans (List.suffix_cons _ _))
          next => exact hbelow h
      | @given c name b haction hb hsize hbefore hafter hheld =>
          subst haction
          have hfree := free_of_ofSize? hafter
          rw [hfree] at h
          rw [free_of_ofSize? hbefore] at hbelow
          rcases List.suffix_cons_iff.mp h with heq | hold
          · obtain ⟨rfl, rfl⟩ := List.cons.inj heq
            refine ⟨steps, name, b, [], rfl, hb, hsize, rfl, free_of_ofSize? hbefore,
              fun part hpart => ?_⟩
            obtain rfl := List.prefix_nil.mp hpart
            simp only [hstep, hfree, List.suffix_refl]
          · exact hbelow hold

/-! ## All runs -/

/-- A request was answered with a block that is held under a name now. -/
structure Served (s : Holdings) (name : String) (length : Nat) (b : Block) (s' : Holdings) :
    Prop where
  held : s'.held.get? name = some b
  length_eq : b.length = length
  length_contents : b.contents.length = length
  /-- Its class is the one that the pool names for this length. -/
  class_eq : b.sizeClass = (classFor? length s.pool).map SizeClass.size
  /-- This is the smallest that holds so many bytes, and it is as long as that. -/
  least : ∀ size, b.sizeClass = some size ↔ size ∈ BlockPool.sizes ∧ length ≤ size ∧
    ∀ other ∈ BlockPool.sizes, length ≤ other → size ≤ other
  length_pooled : ∀ size, b.sizeClass = some size → b.memory.length = size
  /-- A block without a class is as long as was asked for. -/
  length_unpooled : b.sizeClass = none → b.memory.length = length
  /-- Where the memory is from. -/
  supplies : Supplies s.pool length b s'.pool

/-- What a pool and its blocks are like after some steps. -/
structure Accounted (s : Holdings) (steps : List Step) : Prop where
  sizes_eq : sizesOf s.pool = BlockPool.sizes
  /-- All free memory of a class has its size. -/
  length_free : ∀ c ∈ s.pool, ∀ memory ∈ c.free, memory.length = c.size
  fits : ∀ entry ∈ s.held, Fits entry.2
  served : ∀ name length, s.Served name length (s.allocate name length).1 (s.allocate name length).2
  /-- Every block that was created is free, in use or lost. -/
  created_eq : ∀ c ∈ s.pool,
    c.created = c.free.length + s.outstanding c.size + empty.lost c.size steps
  /-- The memory that is handed out next was released last of all that is free. -/
  newest : ∀ c ∈ s.pool, ∀ memory rest, c.free = memory :: rest →
    LastReleased steps c.size memory rest
  /-- If none was lost, as many were created as were in use at once. -/
  created_eq_peak : ∀ c ∈ s.pool, empty.lost c.size steps = 0 → c.created = empty.peak c.size steps

section Runs

variable {s : Holdings}

theorem Fitting.map_size_classFor? (h : s.Fitting) (length size : Nat) :
    (classFor? length s.pool).map SizeClass.size = some size ↔
      size ∈ BlockPool.sizes ∧ length ≤ size ∧
        ∀ other ∈ BlockPool.sizes, length ≤ other → size ≤ other := by
  have hsizes : (sizesOf s.pool).Pairwise (· < ·) := h.sizes_eq ▸ BlockPool.ascending_sizes
  rw [Option.map_eq_some_iff, ← h.sizes_eq]
  constructor
  · rintro ⟨c, hclass, rfl⟩
    obtain ⟨hmem, hlength, hleast⟩ := (BlockPool.classFor?_eq_some_iff hsizes).mp hclass
    exact ⟨List.mem_map_of_mem hmem, hlength, hleast⟩
  · rintro ⟨hmem, hlength, hleast⟩
    obtain ⟨c, hc, rfl⟩ := List.mem_map.mp hmem
    exact ⟨c, (BlockPool.classFor?_eq_some_iff hsizes).mpr ⟨hc, hlength, hleast⟩, rfl⟩

theorem Fitting.served (h : s.Fitting) (name : String) (length : Nat) :
    s.Served name length (s.allocate name length).1 (s.allocate name length).2 := by
  have hfits := h.fits_allocate length
  have hsupplies := BlockPool.allocate_supplies length s.pool
  have hlength := BlockPool.length_allocate length s.pool
  have hclass : (BlockPool.allocate length s.pool).1.sizeClass =
      (classFor? length s.pool).map SizeClass.size := by
    cases hfound : classFor? length s.pool with
    | none => rw [BlockPool.allocate_of_none hfound, Option.map_none]
    | some c => rw [BlockPool.fst_allocate hfound, Option.map_some]
  exact {
    held := Table.get?_insert_self name _ s.held
    length_eq := hlength
    length_contents := by
      show (Block.contents (BlockPool.allocate length s.pool).1).length = length
      rw [Block.contents, List.length_take, hlength]
      exact Nat.min_eq_left (Nat.le_trans (Nat.le_of_eq hlength.symm) hfits.length_le)
    class_eq := hclass
    least := fun size => by
      show (BlockPool.allocate length s.pool).1.sizeClass = some size ↔ _
      rw [hclass]
      exact h.map_size_classFor? length size
    length_pooled := hfits.length_eq
    length_unpooled := fun hnone => by
      have hfound := Option.map_eq_none_iff.mp (hclass.symm.trans hnone)
      show (BlockPool.allocate length s.pool).1.memory.length = length
      rw [BlockPool.allocate_of_none hfound]
      exact List.length_replicate
    supplies := hsupplies }

end Runs

/-- After every run the books of all classes balance, requests are served by the
smallest class that holds them, and memory is used again in the order of a
stack. -/
theorem accounted_run (steps : List Step) : (empty.run steps).Accounted steps := by
  have hfitting := fitting_empty.run steps
  have hsizes : (sizesOf (empty.run steps).pool).Pairwise (· < ·) :=
    hfitting.sizes_eq ▸ BlockPool.ascending_sizes
  have hbegin (size : Nat) : empty.Booked size 0 := by
    rw [Booked, created_empty, free_empty]
    rfl
  have hclass {c : SizeClass} (hc : c ∈ (empty.run steps).pool) :=
    BlockPool.ofSize?_of_mem hsizes hc
  exact {
    sizes_eq := hfitting.sizes_eq
    length_free := fun c hc memory hmem => by
      refine hfitting.length_free c.size memory ?_
      rw [free_of_ofSize? (hclass hc)]
      exact hmem
    fits := hfitting.fits
    served := hfitting.served
    created_eq := fun c hc => by
      have hbooked := (hbegin c.size).run fitting_empty steps
      rw [Booked, created_of_ofSize? (hclass hc), free_of_ofSize? (hclass hc), Nat.zero_add]
        at hbooked
      exact hbooked
    newest := fun c hc memory rest hfree => by
      refine lastReleased_of_suffix ?_
      simp only [free_of_ofSize? (hclass hc), hfree, List.suffix_refl]
    created_eq_peak := fun c hc hnone => by
      have hcreated := (hbegin c.size).created_run fitting_empty steps hnone
      rw [created_of_ofSize? (hclass hc), created_empty, Nat.zero_max] at hcreated
      exact hcreated }

/-- Two blocks are in use at once, and a third request gets the one that came
back last, with what was written into it. -/
example :
    let s := empty.run [.allocate "a" 3, .allocate "b" 30, .write "b" 1 [7, 8], .release "a",
      .release "b", .allocate "c" 4]
    (s.held.get? "c").map Block.contents = some [0, 7, 8, 0] ∧ s.created 32 = 2 ∧
      s.free 32 = [List.replicate 32 0] := by
  decide +kernel

end Holdings

end SessionEngine

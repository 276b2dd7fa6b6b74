import SessionEngine.Proofs.BlockPool.Holdings

/-!
# Loans

A loan is a block that is handed out, gets some bytes at its beginning, and is
taken back before the next block is asked for. After loans nobody holds a
block, as before them (`run_stepsOf`), none was lost (`lost_stepsOf`), and
there was never more than one in use (`peak_stepsOf_le`). With the books of the
pool this says that all blocks are free that were ever created, and that there
is at most one of each size (`balanced`).
-/

namespace SessionEngine

/-- A block of some length that gets some bytes at its beginning. -/
structure Loan where
  length : Nat
  bytes : Bytes
  length_le : bytes.length ≤ length

namespace Loan

open Holdings (Step)

def after (l : Loan) (pool : BlockPool) : BlockPool := BlockPool.lend l.length l.bytes pool

def steps (l : Loan) : List Step :=
  [.allocate "loan" l.length, .write "loan" 0 l.bytes, .release "loan"]

def stepsOf (loans : List Loan) : List Step := loans.flatMap steps

def afterAll (loans : List Loan) (pool : BlockPool) : BlockPool :=
  loans.foldl (fun pool l => l.after pool) pool

/-! ## One loan -/

section One

variable (l : Loan) (pool : BlockPool) (b : Block)

theorem step_allocate (length : Nat) :
    Holdings.step ⟨pool, []⟩ (.allocate "loan" length) =
      ⟨(BlockPool.allocate length pool).2, [("loan", (BlockPool.allocate length pool).1)]⟩ := rfl

theorem step_write {bytes : Bytes} (h : bytes.length ≤ b.length) :
    Holdings.step ⟨pool, [("loan", b)]⟩ (.write "loan" 0 bytes) =
      ⟨pool, [("loan", b.write 0 bytes)]⟩ := by
  have hcovers : Holdings.covers "loan" 0 bytes ⟨pool, [("loan", b)]⟩ = true := by
    rw [Holdings.covers, Table.get?, if_pos rfl, Option.any_some, Nat.zero_add]
    exact decide_eq_true h
  rw [Holdings.step, if_pos hcovers]
  rfl

theorem step_release :
    Holdings.step ⟨pool, [("loan", b)]⟩ (.release "loan") = ⟨BlockPool.release b pool, []⟩ := rfl

theorem length_le_allocate : l.bytes.length ≤ (BlockPool.allocate l.length pool).1.length := by
  rw [BlockPool.length_allocate]
  exact l.length_le

theorem run_steps : Holdings.run ⟨pool, []⟩ l.steps = ⟨l.after pool, []⟩ := by
  rw [steps, Holdings.run_cons, step_allocate, Holdings.run_cons,
    step_write _ _ (l.length_le_allocate pool), Holdings.run_cons, step_release]
  rfl

/-- The name of the block is free when it is taken, and it is given back. -/
theorem lost_steps (size : Nat) : Holdings.lost size ⟨pool, []⟩ l.steps = 0 := rfl

theorem peak_steps_le (size : Nat) : Holdings.peak size ⟨pool, []⟩ l.steps ≤ 1 := by
  have hone (pool : BlockPool) (b : Block) :
      Holdings.outstanding size ⟨pool, [("loan", b)]⟩ ≤ 1 := List.countP_le_length
  have hnone (pool : BlockPool) : Holdings.outstanding size ⟨pool, []⟩ ≤ 1 := Nat.zero_le 1
  rw [steps, Holdings.peak, step_allocate, Holdings.peak,
    step_write _ _ (l.length_le_allocate pool), Holdings.peak, step_release, Holdings.peak]
  simp only [Nat.max_le]
  exact ⟨hnone _, hone _ _, hone _ _, hnone _⟩

end One

/-! ## Many loans -/

section Many

variable (loans : List Loan) (pool : BlockPool)

theorem run_stepsOf : Holdings.run ⟨pool, []⟩ (stepsOf loans) = ⟨afterAll loans pool, []⟩ := by
  induction loans generalizing pool with
  | nil => rfl
  | cons l rest ih =>
      rw [stepsOf, List.flatMap_cons, Holdings.run_append, run_steps]
      exact ih (l.after pool)

theorem lost_stepsOf (size : Nat) : Holdings.lost size ⟨pool, []⟩ (stepsOf loans) = 0 := by
  induction loans generalizing pool with
  | nil => rfl
  | cons l rest ih =>
      rw [stepsOf, List.flatMap_cons, Holdings.lost_append, run_steps, lost_steps, Nat.zero_add]
      exact ih (l.after pool)

theorem peak_stepsOf_le (size : Nat) : Holdings.peak size ⟨pool, []⟩ (stepsOf loans) ≤ 1 := by
  induction loans generalizing pool with
  | nil => exact Nat.zero_le 1
  | cons l rest ih =>
      rw [stepsOf, List.flatMap_cons, Holdings.peak_append, run_steps]
      exact Nat.max_le.mpr ⟨peak_steps_le l pool size, ih (l.after pool)⟩

end Many

/-! ## A new pool -/

section New

variable (loans : List Loan)

theorem run_empty :
    Holdings.empty.run (stepsOf loans) = ⟨afterAll loans BlockPool.empty, []⟩ :=
  run_stepsOf loans BlockPool.empty

theorem fitting_afterAll : Holdings.Fitting ⟨afterAll loans BlockPool.empty, []⟩ := by
  rw [← run_empty]
  exact Holdings.fitting_empty.run (stepsOf loans)

/-- A pool that has only given loans has all its blocks, of each size one at
most. -/
theorem balanced {c : SizeClass} (hc : c ∈ afterAll loans BlockPool.empty) :
    c.created = c.free.length ∧ c.created ≤ 1 := by
  have hclass : BlockPool.ofSize? c.size (afterAll loans BlockPool.empty) = some c :=
    BlockPool.ofSize?_of_mem ((fitting_afterAll loans).sizes_eq ▸ BlockPool.ascending_sizes) hc
  have hlost : Holdings.empty.lost c.size (stepsOf loans) = 0 := lost_stepsOf loans _ c.size
  have hpeak : Holdings.empty.peak c.size (stepsOf loans) ≤ 1 := peak_stepsOf_le loans _ c.size
  have hbegin : Holdings.empty.Booked c.size 0 := by
    rw [Holdings.Booked, Holdings.created_empty, Holdings.free_empty]
    rfl
  have hbooked := hbegin.run Holdings.fitting_empty (stepsOf loans)
  have hcreated := hbegin.created_run Holdings.fitting_empty (stepsOf loans) hlost
  rw [run_empty, Holdings.Booked, hlost, Holdings.created_of_ofSize? hclass,
    Holdings.free_of_ofSize? hclass] at hbooked
  rw [run_empty, Holdings.created_of_ofSize? hclass, Holdings.created_empty, Nat.zero_max]
    at hcreated
  exact ⟨hbooked, Nat.le_trans (Nat.le_of_eq hcreated) hpeak⟩

end New

end Loan

end SessionEngine

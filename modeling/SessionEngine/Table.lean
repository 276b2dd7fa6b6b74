/-!
# Small tables

Things kept under names, in the order in which the names first came up. A
name stands for at most one thing: `insert` replaces, and what `get?` answers
after an operation is settled by the three lemmas at the end.
-/

namespace SessionEngine

/-- Values under keys, at most one under each. -/
abbrev Table (κ α : Type) := List (κ × α)

namespace Table

variable {κ α : Type} [DecidableEq κ]

def get? (key : κ) : Table κ α → Option α
  | [] => none
  | (k, v) :: rest => if k = key then some v else get? key rest

/-- Puts a value under a key, in place of the one there. -/
def insert (key : κ) (value : α) : Table κ α → Table κ α
  | [] => [(key, value)]
  | (k, v) :: rest => if k = key then (key, value) :: rest else (k, v) :: insert key value rest

def erase (key : κ) (table : Table κ α) : Table κ α :=
  table.filter (fun entry => entry.1 ≠ key)

theorem get?_insert_self (key : κ) (value : α) (table : Table κ α) :
    (table.insert key value).get? key = some value := by
  induction table with
  | nil => simp [insert, get?]
  | cons entry rest ih =>
      simp only [insert]
      split
      · simp [get?]
      next h => simp [get?, h, ih]

theorem get?_insert_of_ne {key other : κ} (h : other ≠ key) (value : α)
    (table : Table κ α) : (table.insert key value).get? other = table.get? other := by
  induction table with
  | nil => simp [insert, get?, h.symm]
  | cons entry rest ih =>
      simp only [insert]
      split
      next hk => simp [get?, h.symm, hk]
      next => simp only [get?, ih]

theorem get?_erase (key other : κ) (table : Table κ α) :
    (table.erase key).get? other = if other = key then none else table.get? other := by
  induction table with
  | nil => simp [erase, get?]
  | cons entry rest ih =>
      unfold erase at ih ⊢
      by_cases hk : entry.1 = key
      · rw [List.filter_cons_of_neg (by simp [hk]), ih]
        by_cases ho : other = key
        · simp [ho]
        · simp [ho, get?, hk, Ne.symm ho]
      · rw [List.filter_cons_of_pos (by simp [hk])]
        simp only [get?, ih]
        split
        next h => simp [← h, hk]
        next => rfl

end Table

end SessionEngine

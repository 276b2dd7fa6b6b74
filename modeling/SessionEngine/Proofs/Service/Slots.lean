import SessionEngine.Service.Registry

/-!
# Slots

A registry knows its free slots (`Registry.Sound`): they are listed once each,
and no more is kept than may be. Putting something in fills one slot that was
free, taking it out frees that slot, and no other slot changes
(`get?_of_insert?`, `get?_remove`).
-/

namespace SessionEngine

namespace Registry

variable {α : Type} {r r' : Registry α} {a : α} {key : Nat}

/-- The list of free slots is right, and not too much is kept. -/
structure Sound (r : Registry α) : Prop where
  nodup : r.vacant.Nodup
  vacant_iff : ∀ key, key ∈ r.vacant ↔ key < r.slots.length ∧ r.get? key = none
  count_le : r.count ≤ r.limit

theorem sound_empty (limit : Nat) : (empty limit : Registry α).Sound where
  nodup := List.nodup_nil
  vacant_iff key := by simp [empty]
  count_le := Nat.zero_le _

/-! ## What is kept -/

theorem get?_eq_some_iff : r.get? key = some a ↔ r.slots[key]? = some (some a) :=
  Option.join_eq_some_iff

theorem lt_length_of_get? (h : r.get? key = some a) : key < r.slots.length :=
  (List.getElem?_eq_some_iff.mp (get?_eq_some_iff.mp h)).1

theorem get?_eq_getElem (hkey : key < r.slots.length) : r.get? key = r.slots[key] := by
  rw [get?, List.getElem?_eq_getElem hkey]
  rfl

theorem mem_members_iff : a ∈ r.members ↔ ∃ key, r.get? key = some a := by
  rw [members, List.mem_filterMap]
  constructor
  · rintro ⟨slot, hslot, rfl⟩
    obtain ⟨key, hkey⟩ := List.mem_iff_getElem?.mp hslot
    exact ⟨key, get?_eq_some_iff.mpr hkey⟩
  · rintro ⟨key, hkey⟩
    exact ⟨some a, List.mem_iff_getElem?.mpr ⟨key, get?_eq_some_iff.mp hkey⟩, rfl⟩

theorem count_eq_countP (r : Registry α) : r.count = r.slots.countP Option.isSome :=
  List.length_filterMap_eq_countP

theorem count_eq_zero (h : ∀ key, r.get? key = none) : r.count = 0 := by
  rw [count, List.length_eq_zero_iff, List.eq_nil_iff_forall_not_mem]
  intro a hmem
  obtain ⟨key, hkey⟩ := mem_members_iff.mp hmem
  rw [h] at hkey
  cases hkey

theorem count_members [DecidableEq α] (r : Registry α) (a : α) :
    r.members.count a = r.slots.count (some a) := by
  rw [members, List.count, List.countP_filterMap, List.count]
  refine List.countP_congr fun slot _ => ?_
  cases slot <;> simp

/-! ## One slot -/

section Setting

variable {slot : Option α}

theorem get?_set (hkey : key < r.slots.length) (vacant : List Nat) (other : Nat) :
    ({ r with slots := r.slots.set key slot, vacant } : Registry α).get? other =
      if other = key then slot else r.get? other := by
  rw [get?, List.getElem?_set, if_pos hkey]
  by_cases hother : other = key
  · rw [if_pos hother, if_pos hother.symm]
    rfl
  · rw [if_neg hother, if_neg (Ne.symm hother)]
    rfl

theorem get?_append (vacant : List Nat) (other : Nat) :
    ({ r with slots := r.slots ++ [slot], vacant } : Registry α).get? other =
      if other = r.slots.length then slot else r.get? other := by
  rw [get?, get?, List.getElem?_append]
  by_cases hother : other = r.slots.length
  · rw [if_pos hother, if_neg (by omega), hother, Nat.sub_self]
    rfl
  · rw [if_neg hother]
    split
    · rfl
    next hlength =>
        have hnone : r.slots[other]? = none := List.getElem?_eq_none (Nat.not_lt.mp hlength)
        have hbehind : [slot][other - r.slots.length]? = none :=
          List.getElem?_eq_none (by rw [List.length_singleton]; omega)
        rw [hnone, hbehind]

theorem count_set (hkey : key < r.slots.length) (vacant : List Nat) :
    ({ r with slots := r.slots.set key slot, vacant } : Registry α).count =
      r.count - (r.get? key).isSome.toNat + slot.isSome.toNat := by
  rw [count_eq_countP, count_eq_countP, List.countP_set hkey, get?_eq_getElem hkey]
  cases r.slots[key] <;> cases slot <;> rfl

end Setting

/-! ## Putting in -/

/-- A thing goes into the slot that became free last, or into a new one. -/
theorem insert?_cases (h : r.insert? a = some (key, r')) :
    r.count < r.limit ∧
      ((∃ vacant, r.vacant = key :: vacant ∧
          r' = { r with slots := r.slots.set key (some a), vacant }) ∨
        (r.vacant = [] ∧ key = r.slots.length ∧
          r' = { r with slots := r.slots ++ [some a], vacant := [] })) := by
  obtain ⟨slots, vacant, limit⟩ := r
  rw [insert?] at h
  split at h
  next hroom =>
      refine ⟨hroom, ?_⟩
      cases vacant with
      | cons key vacant =>
          cases h
          exact .inl ⟨vacant, rfl, rfl⟩
      | nil =>
          cases h
          exact .inr ⟨rfl, rfl, rfl⟩
  next => cases h

theorem insert?_eq_none_iff : r.insert? a = none ↔ r.limit ≤ r.count := by
  rw [insert?]
  split
  next hroom => cases r.vacant <;> simpa using hroom
  next hfull => simpa using hfull

theorem exists_insert? (hroom : r.count < r.limit) (a : α) :
    ∃ key r', r.insert? a = some (key, r') := by
  cases hinsert : r.insert? a with
  | none => exact absurd hroom (Nat.not_lt.mpr (insert?_eq_none_iff.mp hinsert))
  | some slot => exact ⟨slot.1, slot.2, rfl⟩

theorem limit_of_insert? (h : r.insert? a = some (key, r')) : r'.limit = r.limit := by
  obtain ⟨-, ⟨vacant, -, rfl⟩ | ⟨-, -, rfl⟩⟩ := insert?_cases h <;> rfl

/-- A slot is filled that was free, and no other slot changes. -/
theorem get?_of_insert? (hr : r.Sound) (h : r.insert? a = some (key, r')) :
    r.get? key = none ∧ ∀ other, r'.get? other = if other = key then some a else r.get? other := by
  obtain ⟨-, ⟨vacant, hvacant, rfl⟩ | ⟨hvacant, rfl, rfl⟩⟩ := insert?_cases h
  · have hfree : key ∈ r.vacant := by
      rw [hvacant]
      exact List.mem_cons_self
    obtain ⟨hlength, hnone⟩ := (hr.vacant_iff key).mp hfree
    exact ⟨hnone, get?_set hlength vacant⟩
  · refine ⟨?_, get?_append []⟩
    rw [get?, List.getElem?_eq_none (Nat.le_refl _)]
    rfl

/-- What is put in is in one slot more. -/
theorem count_members_of_insert? [DecidableEq α] (hr : r.Sound)
    (h : r.insert? a = some (key, r')) (other : α) :
    r'.members.count other = r.members.count other + if other = a then 1 else 0 := by
  obtain ⟨hfree, -⟩ := get?_of_insert? hr h
  obtain ⟨-, ⟨vacant, hvacant, rfl⟩ | ⟨hvacant, rfl, rfl⟩⟩ := insert?_cases h
  · have hlength : key < r.slots.length := by
      refine ((hr.vacant_iff key).mp ?_).1
      rw [hvacant]
      exact List.mem_cons_self
    rw [get?_eq_getElem hlength] at hfree
    rw [count_members, count_members, List.count_set hlength, hfree]
    by_cases hother : other = a
    · simp [hother]
    · simp [hother, Ne.symm hother]
  · rw [count_members, count_members, List.count_append, List.count_singleton]
    by_cases hother : other = a
    · simp [hother]
    · simp [hother, Ne.symm hother]

theorem sound_of_insert? (hr : r.Sound) (h : r.insert? a = some (key, r')) : r'.Sound := by
  obtain ⟨-, hget⟩ := get?_of_insert? hr h
  obtain ⟨hroom, ⟨vacant, hvacant, rfl⟩ | ⟨hvacant, rfl, rfl⟩⟩ := insert?_cases h
  · have hiff := hr.vacant_iff
    have hnodup := hr.nodup
    rw [hvacant] at hiff hnodup
    obtain ⟨hnew, hnodup⟩ := List.nodup_cons.mp hnodup
    obtain ⟨hlength, hnone⟩ := (hiff key).mp List.mem_cons_self
    refine ⟨hnodup, fun other => ?_, ?_⟩
    · rw [hget]
      show _ ↔ other < (r.slots.set key (some a)).length ∧ _
      rw [List.length_set]
      by_cases hother : other = key
      · subst hother
        simp [hnew]
      · rw [if_neg hother, ← hiff, List.mem_cons]
        exact (or_iff_right hother).symm
    · rw [count_set hlength, hnone]
      exact hroom
  · refine ⟨List.nodup_nil, fun other => ?_, ?_⟩
    · have hiff := hr.vacant_iff other
      rw [hvacant] at hiff
      rw [hget]
      show _ ↔ other < (r.slots ++ [some a]).length ∧ _
      rw [List.length_append, List.length_singleton]
      by_cases hother : other = r.slots.length
      · simp [hother]
      · rw [if_neg hother, hiff]
        refine and_congr_left fun _ => ?_
        omega
    · rw [count_eq_countP] at hroom
      rw [count_eq_countP, List.countP_append]
      exact hroom

/-! ## Taking out -/

/-- A slot is freed, and no other slot changes. -/
theorem get?_remove (r : Registry α) (key other : Nat) :
    (r.remove key).get? other = if other = key then none else r.get? other := by
  by_cases hlength : key < r.slots.length
  · exact get?_set hlength (key :: r.vacant) other
  · have hsame : (r.remove key).get? other = r.get? other := by
      rw [remove, get?, List.set_eq_of_length_le (Nat.not_lt.mp hlength)]
      rfl
    rw [hsame]
    split
    next hother =>
        rw [hother, get?, List.getElem?_eq_none (Nat.not_lt.mp hlength)]
        rfl
    next => rfl

theorem Sound.remove (hr : r.Sound) (h : r.get? key = some a) : (r.remove key).Sound := by
  have hlength := lt_length_of_get? h
  have htaken : key ∉ r.vacant := by
    rw [hr.vacant_iff, h]
    exact fun hfree => Option.some_ne_none a hfree.2
  refine ⟨List.nodup_cons.mpr ⟨htaken, hr.nodup⟩, fun other => ?_, ?_⟩
  · rw [get?_remove]
    show other ∈ key :: r.vacant ↔ other < (r.slots.set key none).length ∧ _
    rw [List.length_set, List.mem_cons, hr.vacant_iff]
    by_cases hother : other = key
    · simp [hother, hlength]
    · rw [if_neg hother, or_iff_right hother]
  · have hcount : (r.remove key).count = _ := count_set hlength (key :: r.vacant)
    rw [hcount]
    exact Nat.le_trans (Nat.sub_le _ _) hr.count_le

/-- What is taken out is in one slot less. -/
theorem count_members_remove [DecidableEq α] (h : r.get? key = some a) (other : α) :
    (r.remove key).members.count other + (if other = a then 1 else 0) =
      r.members.count other := by
  have hlength := lt_length_of_get? h
  rw [get?_eq_getElem hlength] at h
  have hmem : some a ∈ r.slots := h ▸ List.getElem_mem hlength
  rw [count_members, count_members, remove, List.count_set hlength, h]
  by_cases hother : other = a
  · have hpos := List.count_pos_iff.mpr hmem
    simp [hother]
    omega
  · simp [hother, Ne.symm hother]

end Registry

end SessionEngine

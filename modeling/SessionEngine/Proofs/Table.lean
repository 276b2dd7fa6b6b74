import SessionEngine.Table

/-!
# Tables with at most one entry for a key

`Table.get?` finds the first entry of a key. Where no key comes twice
(`Distinct`), the entry found is the only one (`get?_of_mem`), so looking
up commutes with filtering (`get?_filter`) and a found entry says all there is
to say about its key.
-/

namespace SessionEngine

namespace Table

variable {κ α : Type}

/-- No key comes twice. -/
def Distinct (table : Table κ α) : Prop := (table.map Prod.fst).Nodup

theorem distinct_nil : Distinct ([] : Table κ α) := List.nodup_nil

theorem Distinct.filter {table : Table κ α} (hd : table.Distinct) (p : κ × α → Bool) :
    Distinct (table.filter p) :=
  (List.filter_sublist.map Prod.fst).nodup hd

theorem Distinct.tail {entry : κ × α} {rest : Table κ α} (hd : Distinct (entry :: rest)) :
    Distinct rest :=
  (List.nodup_cons.mp hd).2

variable [DecidableEq κ]

theorem mem_of_get? {key : κ} {value : α} {table : Table κ α}
    (h : table.get? key = some value) : (key, value) ∈ table := by
  induction table with
  | nil => cases h
  | cons entry rest ih =>
      obtain ⟨k, v⟩ := entry
      rw [get?] at h
      split at h
      next hk =>
          obtain rfl := Option.some.inj h
          rw [hk]
          exact List.mem_cons_self
      next => exact List.mem_cons_of_mem _ (ih h)

theorem get?_eq_none_iff {key : κ} {table : Table κ α} :
    table.get? key = none ↔ ∀ entry ∈ table, entry.1 ≠ key := by
  induction table with
  | nil => simp [get?]
  | cons entry rest ih =>
      obtain ⟨k, v⟩ := entry
      rw [get?, List.forall_mem_cons]
      by_cases hk : k = key
      · simp [hk]
      · simp [hk, ih]

theorem get?_of_mem {key : κ} {value : α} {table : Table κ α} (hd : table.Distinct)
    (h : (key, value) ∈ table) : table.get? key = some value := by
  induction table with
  | nil => cases h
  | cons entry rest ih =>
      obtain ⟨k, v⟩ := entry
      rw [Distinct, List.map_cons, List.nodup_cons] at hd
      rw [get?]
      rcases List.mem_cons.mp h with heq | hmem
      · obtain ⟨rfl, rfl⟩ := Prod.mk.inj heq
        rw [if_pos rfl]
      · have hne : k ≠ key := by
          rintro rfl
          exact hd.1 (List.mem_map.mpr ⟨_, hmem, rfl⟩)
        rw [if_neg hne]
        exact ih hd.2 hmem

theorem Distinct.get?_tail {key : κ} {value : α} {rest : Table κ α}
    (hd : Distinct ((key, value) :: rest)) : rest.get? key = none := by
  rw [get?_eq_none_iff]
  rintro entry hmem rfl
  exact (List.nodup_cons.mp hd).1 (List.mem_map.mpr ⟨entry, hmem, rfl⟩)

/-! ## Distinct keys stay distinct -/

theorem Distinct.erase {table : Table κ α} (hd : table.Distinct) (key : κ) :
    Distinct (table.erase key) :=
  hd.filter _

theorem mem_insert {key : κ} {value : α} {table : Table κ α} {entry : κ × α}
    (h : entry ∈ table.insert key value) : entry = (key, value) ∨ entry ∈ table := by
  induction table with
  | nil => exact Or.inl (List.mem_singleton.mp h)
  | cons first rest ih =>
      obtain ⟨k, v⟩ := first
      rw [insert] at h
      split at h
      · rcases List.mem_cons.mp h with heq | hmem
        · exact Or.inl heq
        · exact Or.inr (List.mem_cons_of_mem _ hmem)
      · rcases List.mem_cons.mp h with rfl | hmem
        · exact Or.inr List.mem_cons_self
        · rcases ih hmem with heq | hrest
          · exact Or.inl heq
          · exact Or.inr (List.mem_cons_of_mem _ hrest)

theorem erase_of_get?_eq_none {key : κ} {table : Table κ α} (h : table.get? key = none) :
    table.erase key = table := by
  rw [erase, List.filter_eq_self]
  intro entry hmem
  exact decide_eq_true (get?_eq_none_iff.mp h entry hmem)

theorem erase_cons_self {key : κ} {value : α} {rest : Table κ α}
    (hd : Distinct ((key, value) :: rest)) : erase key ((key, value) :: rest) = rest := by
  rw [erase, List.filter_cons_of_neg (by simp)]
  exact erase_of_get?_eq_none hd.get?_tail

theorem erase_cons_of_ne {key k : κ} (h : k ≠ key) (value : α) (rest : Table κ α) :
    erase key ((k, value) :: rest) = (k, value) :: erase key rest :=
  List.filter_cons_of_pos (by simp [h])

/-- A table is its entry of a key and the others. -/
theorem perm_erase {key : κ} {value : α} {table : Table κ α} (hd : table.Distinct)
    (h : table.get? key = some value) : table.Perm ((key, value) :: table.erase key) := by
  induction table with
  | nil => cases h
  | cons entry rest ih =>
      obtain ⟨k, v⟩ := entry
      rw [get?] at h
      by_cases hk : k = key
      · subst hk
        rw [if_pos rfl] at h
        obtain rfl := Option.some.inj h
        rw [erase_cons_self hd]
      · rw [if_neg hk] at h
        rw [erase_cons_of_ne hk]
        exact ((ih hd.tail h).cons _).trans (List.Perm.swap _ _ _)

/-- Putting a value under a key leaves the entries of other keys. -/
theorem insert_perm {table : Table κ α} (hd : table.Distinct) (key : κ) (value : α) :
    (table.insert key value).Perm ((key, value) :: table.erase key) := by
  induction table with
  | nil => exact List.Perm.refl _
  | cons entry rest ih =>
      obtain ⟨k, v⟩ := entry
      rw [insert]
      by_cases hk : k = key
      · subst hk
        rw [if_pos rfl, erase_cons_self hd]
      · rw [if_neg hk, erase_cons_of_ne hk]
        exact ((ih hd.tail).cons _).trans (List.Perm.swap _ _ _)

theorem Distinct.insert {table : Table κ α} (hd : table.Distinct) (key : κ) (value : α) :
    Distinct (table.insert key value) := by
  rw [Distinct, ((insert_perm hd key value).map Prod.fst).nodup_iff, List.map_cons,
    List.nodup_cons]
  refine ⟨fun hmem => ?_, hd.erase key⟩
  obtain ⟨entry, hentry, hkey⟩ := List.mem_map.mp hmem
  exact of_decide_eq_true (List.mem_filter.mp hentry).2 hkey

/-- Looking up after filtering. -/
theorem get?_filter {table : Table κ α} (hd : table.Distinct) (p : κ × α → Bool) (key : κ) :
    get? key (table.filter p) = (table.get? key).filter fun value => p (key, value) := by
  cases hfound : table.get? key with
  | none =>
      rw [Option.filter_none, get?_eq_none_iff]
      intro entry hmem
      exact get?_eq_none_iff.mp hfound entry (List.mem_filter.mp hmem).1
  | some value =>
      have hmem := mem_of_get? hfound
      by_cases hp : p (key, value) = true
      · rw [Option.filter_some, if_pos hp]
        exact get?_of_mem (hd.filter p) (List.mem_filter.mpr ⟨hmem, hp⟩)
      · rw [Option.filter_some, if_neg hp, get?_eq_none_iff]
        rintro ⟨k, v⟩ hfiltered rfl
        obtain ⟨hin, hpass⟩ := List.mem_filter.mp hfiltered
        have hv := (get?_of_mem hd hin).symm.trans hfound
        obtain rfl := Option.some.inj hv
        exact hp hpass

/-- A key comes once or not at all. -/
theorem countP_key {table : Table κ α} (hd : table.Distinct) (key : κ) :
    (table.countP fun entry => entry.1 = key) = (table.get? key).isSome.toNat := by
  induction table with
  | nil => rfl
  | cons entry rest ih =>
      obtain ⟨k, v⟩ := entry
      rw [List.countP_cons, ih hd.tail, get?]
      by_cases hk : k = key
      · subst hk
        simp [hd.get?_tail]
      · simp [hk]

/-- What counts in a table counts under a key or elsewhere. -/
theorem countP_erase {table : Table κ α} (hd : table.Distinct) (key : κ) (p : κ × α → Bool) :
    List.countP p table =
      List.countP p (table.erase key) +
        ((table.get? key).any fun value => p (key, value)).toNat := by
  cases hfound : table.get? key with
  | none => rw [erase_of_get?_eq_none hfound]; rfl
  | some value =>
      rw [(perm_erase hd hfound).countP_eq, List.countP_cons, Option.any_some]
      cases p (key, value) <;> rfl

theorem countP_insert {table : Table κ α} (hd : table.Distinct) (key : κ) (value : α)
    (p : κ × α → Bool) :
    List.countP p (table.insert key value) =
      List.countP p (table.erase key) + (p (key, value)).toNat := by
  rw [(insert_perm hd key value).countP_eq, List.countP_cons]
  cases p (key, value) <;> rfl

end Table

end SessionEngine

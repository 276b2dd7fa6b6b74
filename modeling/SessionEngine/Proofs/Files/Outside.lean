import SessionEngine.Proofs.Files.Directory

/-!
# What operations leave outside a directory

Where an operation on a directory changes entries: `Keeps` says that the places
outside of some are as they were, but for directories that were made where
nothing was. Making a directory makes only those on the way to it
(`keeps_makeDirectories`), moving an entry changes only what lies at or below
its two ends (`lookup_move`), and creating a file changes one place
(`lookup_insert`).
-/

namespace SessionEngine

namespace Disk

variable {d d' d'' : Disk} {dir : Path} {place : Location}

/-- What is outside is as it was, but for directories that were made where
nothing was. -/
def Keeps (outside made : Location → Prop) (d d' : Disk) : Prop :=
  ∀ place, outside place → d'.lookup place = d.lookup place ∨
    (made place ∧ d.lookup place = none ∧ d'.lookup place = some .directory)

section Keeping

variable {outside outside' made : Location → Prop}

theorem Keeps.refl (outside made : Location → Prop) (d : Disk) : Keeps outside made d d :=
  fun _ _ => .inl rfl

theorem Keeps.trans (h : Keeps outside made d d') (h' : Keeps outside made d' d'') :
    Keeps outside made d d'' := by
  intro place hplace
  rcases h' place hplace with heq | ⟨hmade, hnone, hdirectory⟩
  · rw [heq]
    exact h place hplace
  · rcases h place hplace with heq | ⟨-, habsent, -⟩
    · exact .inr ⟨hmade, heq.symm.trans hnone, hdirectory⟩
    · exact .inr ⟨hmade, habsent, hdirectory⟩

theorem Keeps.mono (h : Keeps outside made d d')
    (hless : ∀ place, outside' place → outside place) : Keeps outside' made d d' :=
  fun place hplace => h place (hless place hplace)

end Keeping

/-! ## Entering -/

/-- Only the place of an entry changes when it is entered. -/
theorem lookup_insert (hplace : place ≠ []) (node : Node) (contents : List Content)
    (other : Location) : (⟨d.entries.insert place node, contents⟩ : Disk).lookup other =
      if other = place then some node else d.lookup other := by
  by_cases hother : other = place
  · subst hother
    rw [lookup, if_neg hplace, if_pos rfl]
    exact Table.get?_insert_self ..
  · rw [if_neg hother, lookup, lookup, Table.get?_insert_of_ne hother]

/-! ## Making directories -/

/-- The place of a directory on the way to a directory, or its own. -/
def OnWay (dir : Path) (place : Location) : Prop :=
  ∃ names, names <+: dir.names ∧ place = resolve [] names

theorem resolve_append_singleton {name : String} (hpoint : name ≠ ".") (hup : name ≠ "..")
    (here : Location) (names : List String) :
    resolve here (names ++ [name]) = resolve here names ++ [name] := by
  induction names generalizing here with
  | nil =>
      rw [List.nil_append, resolve.eq_def here [name]]
      dsimp only
      rw [if_neg hpoint, if_neg hup]
      rfl
  | cons first rest ih =>
      rw [List.cons_append, resolve, resolve]
      split
      · exact ih here
      · split
        · exact ih here.dropLast
        · exact ih (here ++ [first])

/-- Points lead nowhere. -/
theorem resolve_filter (here : Location) (names : List String) :
    resolve here (names.filter (· ≠ ".")) = resolve here names := by
  induction names generalizing here with
  | nil => rfl
  | cons first rest ih =>
      rw [resolve]
      by_cases hpoint : first = "."
      · rw [if_pos hpoint, List.filter_cons_of_neg (by simpa using hpoint), ih]
      · rw [if_neg hpoint, List.filter_cons_of_pos (by simpa using hpoint), resolve,
          if_neg hpoint, ih, ih]

theorem eq_resolve_of_walk {here : Location} {names : List String}
    (h : d.walk here (names ++ ["."]) = .ok place) : place = resolve here names := by
  induction names generalizing here with
  | nil =>
      rw [List.nil_append, walk, if_pos rfl, walk] at h
      cases h
      rfl
  | cons first rest ih =>
      rw [List.cons_append, walk] at h
      rw [resolve]
      split at h
      next hpoint => rw [if_pos hpoint]; exact ih h
      next hpoint =>
          rw [if_neg hpoint]
          split at h
          next hup => rw [if_pos hup]; exact ih h
          next hup =>
              rw [if_neg hup]
              split at h
              · cases h
              · rw [if_neg (by simp)] at h
                split at h
                · exact ih h
                · cases h
                · cases h

/-- A directory is made where its names lead, in a directory that is there. -/
theorem makeDirectory_cases {names : List String} (h : d.makeDirectory names = .ok d') :
    (∃ above name, d.enter above = .ok (resolve [] above) ∧
      resolve [] names = resolve [] above ++ [name]) ∧
      d.lookup (resolve [] names) = none ∧
      d' = { d with entries := d.entries.insert (resolve [] names) .directory } := by
  rw [makeDirectory] at h
  split at h
  · cases h
  next name hlast =>
      split at h
      · cases h
      next here henter =>
          split at h
          · cases h
          next hname =>
              obtain ⟨above, rfl⟩ := List.getLast?_eq_some_iff.mp hlast
              rw [List.dropLast_concat] at henter
              obtain rfl := eq_resolve_of_walk henter
              have hplace : resolve [] (above ++ [name]) = resolve [] above ++ [name] :=
                resolve_append_singleton (fun heq => hname (.inl heq))
                  (fun heq => hname (.inr heq)) [] above
              split at h
              · cases h
              · split at h
                · cases h
                next habsent =>
                    cases h
                    rw [hplace]
                    exact ⟨⟨above, name, henter, rfl⟩, by simpa using habsent, rfl⟩

theorem keeps_makeDirectory {made : Location → Prop} {names : List String}
    (hmade : made (resolve [] names)) (h : d.makeDirectory names = .ok d') :
    Keeps (fun _ => True) made d d' := by
  obtain ⟨-, hnone, rfl⟩ := makeDirectory_cases h
  have hroot : resolve [] names ≠ [] := by
    intro hroot
    rw [hroot] at hnone
    cases hnone
  intro place _
  rw [lookup_insert hroot]
  split
  next hplace => exact .inr ⟨hplace ▸ hmade, hplace ▸ hnone, rfl⟩
  next => exact .inl rfl

theorem keeps_makeFirst {made : Location → Prop} (d : Disk) {below : List (List String)}
    (hmade : ∀ names ∈ below, made (resolve [] names)) :
    Keeps (fun _ => True) made d (d.makeFirst below).1 := by
  induction below with
  | nil => exact .refl _ _ d
  | cons names above ih =>
      have hfirst := hmade names List.mem_cons_self
      have habove := ih fun other hother => hmade other (List.mem_cons_of_mem _ hother)
      rw [makeFirst]
      split
      next hmake => exact keeps_makeDirectory hfirst hmake
      next => exact .refl _ _ d
      next =>
          rcases hfound : d.makeFirst above with ⟨d₁, e | _⟩
          · rw [hfound] at habove
            exact habove
          · rw [hfound] at habove
            dsimp only
            split
            next hmake => exact habove.trans (keeps_makeDirectory hfirst hmake)
            next => exact habove
            next => exact habove
      next => exact .refl _ _ d

theorem onWay_of_mem {path : Path} {names : List String} (h : names ∈ path.names :: path.above) :
    OnWay path (resolve [] names) := by
  rcases List.mem_cons.mp h with rfl | habove
  · exact ⟨path.names, List.prefix_refl _, rfl⟩
  · rw [Path.above] at habove
    obtain ⟨length, -, rfl⟩ := List.mem_map.mp habove
    obtain ⟨way, hway, heq⟩ := List.prefix_filter_iff.mp
      (List.take_prefix length (path.names.filter (· ≠ ".")))
    exact ⟨way, hway, by rw [heq, resolve_filter]⟩

/-- Only directories on the way are made. -/
theorem keeps_makeDirectories (d : Disk) (path : Path) :
    Keeps (fun _ => True) (OnWay path) d (d.makeDirectories path).1 := by
  rw [makeDirectories]
  split
  · exact .refl _ _ d
  · exact keeps_makeFirst d fun names hnames => onWay_of_mem hnames

/-! ## Renaming -/

theorem get?_moveBelow_of_outside {source target : Location} (hsource : ¬source <+: place)
    (htarget : ¬target <+: place) (entries : Table Location Node) :
    Table.get? place (moveBelow source target (entries.erase target)) = entries.get? place := by
  induction entries with
  | nil => rfl
  | cons entry rest ih =>
      obtain ⟨at_, node⟩ := entry
      by_cases hover : at_ = target
      · subst hover
        have herased : Table.erase at_ ((at_, node) :: rest) = Table.erase at_ rest :=
          List.filter_cons_of_neg (by simp)
        have haway : at_ ≠ place := fun heq => htarget (heq ▸ List.prefix_refl at_)
        rw [herased, ih, get?_cons_of_ne haway]
      · have hkept : Table.erase target ((at_, node) :: rest) =
            (at_, node) :: Table.erase target rest := List.filter_cons_of_pos (by simpa using hover)
        rw [hkept, moveBelow, List.map_cons, ← moveBelow]
        dsimp only
        split
        next hprefix =>
            -- neither where the entry was nor where it goes is the place
            have hleft : at_ ≠ place :=
              fun heq => hsource (heq ▸ List.isPrefixOf_iff_prefix.mp hprefix)
            have hright : target ++ at_.drop source.length ≠ place :=
              fun heq => htarget (heq ▸ List.prefix_append target _)
            rw [get?_cons_of_ne hright, ih, get?_cons_of_ne hleft]
        next =>
            by_cases hplace : at_ = place
            · rw [Table.get?, if_pos hplace, Table.get?, if_pos hplace]
            · rw [get?_cons_of_ne hplace, ih, get?_cons_of_ne hplace]

/-- Only what lies at or below the two ends of a move changes. -/
theorem lookup_move {source target : Location} (hsource : ¬source <+: place)
    (htarget : ¬target <+: place) : (d.move source target).lookup place = d.lookup place := by
  rw [lookup, lookup]
  split
  · rfl
  · exact get?_moveBelow_of_outside hsource htarget d.entries

end Disk

end SessionEngine

import SessionEngine.Proofs.Files.Disk

/-!
# The files of one directory

Where the names of one directory lead does not depend on the disk, if they lead
anywhere (`walk_append_singleton`), so what is found under a name can be
followed from disk to disk (`fileIn`). Directories that are made in between
change nothing about it (`Grows`), a file that is moved is found under its new
name and no longer under the old one (`foundIn_move`), and a file that is
entered under a name is found there, and the other names do not notice
(`foundIn_insert`).
-/

namespace SessionEngine

namespace Disk

/-! ## Where names lead -/

/-- Where names lead from a directory, if nothing is in the way. -/
def resolve (here : Location) : List String → Location
  | [] => here
  | name :: rest =>
      if name = "." then resolve here rest
      else if name = ".." then resolve here.dropLast rest
      else resolve (here ++ [name]) rest

def placeIn (dir : Path) (name : String) : Location := resolve [] dir.names ++ [name]

/-- A name that an entry of the directory can have. -/
structure Nameable (dir : Path) (name : String) : Prop where
  obstacle : obstacle? (dir.join name) = none
  ne_point : name ≠ "."
  ne_up : name ≠ ".."
  short : name.utf8ByteSize ≤ maxNameLength

/-- All names lead into the directory. -/
def Opens (dir : Path) (d : Disk) : Prop :=
  ∀ name, Nameable dir name → d.locate (dir.join name) = .ok (placeIn dir name)

section Walking

variable {d : Disk} {dir path : Path} {name other : String} {place : Location}

theorem placeIn_injective : placeIn dir name = placeIn dir other ↔ name = other := by
  rw [placeIn, placeIn, List.append_cancel_left_eq, List.singleton_inj]

theorem placeIn_ne_nil : placeIn dir name ≠ [] := List.append_ne_nil_of_right_ne_nil _ (by simp)

theorem length_placeIn : (placeIn dir name).length = (placeIn dir other).length := by
  rw [placeIn, placeIn, List.length_append, List.length_append]
  rfl

/-- The last name only decides where the way ends, not whether there is one. -/
theorem walk_append_singleton (hpoint : name ≠ ".") (hup : name ≠ "..") (here : Location)
    (names : List String) :
    d.walk here (names ++ [name]) = (d.walk here (names ++ ["."])).bind fun _ =>
      if maxNameLength < name.utf8ByteSize then .error .nameTooLong
      else .ok (resolve here names ++ [name]) := by
  induction names generalizing here with
  | nil =>
      rw [List.nil_append, List.nil_append, walk, if_neg hpoint, if_neg hup, if_pos rfl]
      rfl
  | cons first rest ih =>
      have hrest : ∀ last : String, rest ++ [last] ≠ [] := by simp
      rw [List.cons_append, List.cons_append, walk, walk, resolve, if_neg (hrest name),
        if_neg (hrest ".")]
      split
      · exact ih here
      · split
        · exact ih here.dropLast
        · split
          · rfl
          · split
            · exact ih (here ++ [first])
            · rfl
            · rfl

theorem walk_of_locate (h : d.locate path = .ok place) :
    obstacle? path = none ∧ d.walk [] path.way = .ok place := by
  rw [locate] at h
  split at h
  · cases h
  next hnone => exact ⟨hnone, h⟩

theorem locate_of_walk (hobstacle : obstacle? path = none) (h : d.walk [] path.way = .ok place) :
    d.locate path = .ok place := by
  rw [locate, hobstacle]
  exact h

/-- A path of a name in a directory leads there. -/
theorem eq_placeIn_of_locate (hway : path.way = dir.names ++ [name]) (hpoint : name ≠ ".")
    (hup : name ≠ "..") (h : d.locate path = .ok place) :
    place = placeIn dir name ∧ name.utf8ByteSize ≤ maxNameLength ∧
      ∃ here, d.enter dir.names = .ok here := by
  obtain ⟨-, hwalk⟩ := walk_of_locate h
  rw [hway, walk_append_singleton hpoint hup] at hwalk
  cases henter : d.walk [] (dir.names ++ ["."]) with
  | error e =>
      rw [henter] at hwalk
      cases hwalk
  | ok here =>
      rw [henter, Except.bind] at hwalk
      split at hwalk
      · cases hwalk
      next hshort =>
          cases hwalk
          exact ⟨rfl, Nat.le_of_not_lt hshort, here, henter⟩

theorem nameable_of_locate (hpoint : name ≠ ".") (hup : name ≠ "..")
    (h : d.locate (dir.join name) = .ok place) : Nameable dir name :=
  ⟨(walk_of_locate h).1, hpoint, hup, (eq_placeIn_of_locate rfl hpoint hup h).2.1⟩

/-- If one name leads into the directory, all do. -/
theorem opens_of_locate (hpoint : name ≠ ".") (hup : name ≠ "..")
    (h : d.locate (dir.join name) = .ok place) : d.Opens dir := by
  obtain ⟨-, -, here, henter⟩ := eq_placeIn_of_locate rfl hpoint hup h
  intro other hother
  refine locate_of_walk hother.obstacle ?_
  have hway : (dir.join other).way = dir.names ++ [other] := rfl
  have hinto : d.walk [] (dir.names ++ ["."]) = .ok here := henter
  rw [hway, walk_append_singleton hother.ne_point hother.ne_up, hinto, Except.bind,
    if_neg (Nat.not_lt.mpr hother.short)]
  rfl

theorem Opens.write (h : d.Opens dir) (number offset : Nat) (bytes : Bytes) :
    (d.write number offset bytes).Opens dir := by
  intro other hother
  refine locate_of_directories (fun place hplace => ?_) (h other hother)
  rw [lookup_of_entries_eq (entries_write offset bytes)]
  exact hplace

end Walking

/-! ## What is found -/

def foundIn (dir : Path) (name : String) (d : Disk) : Option Node := d.lookup (placeIn dir name)

/-- The number of the file of this name in a directory. -/
def fileIn (dir : Path) (name : String) (d : Disk) : Option Nat :=
  match d.foundIn dir name with
  | some (.file number) => some number
  | _ => none

section Finding

variable {d d' : Disk} {dir : Path} {name other : String} {number : Nat}

theorem foundIn_eq_get? : d.foundIn dir name = d.entries.get? (placeIn dir name) := by
  rw [foundIn, lookup, if_neg placeIn_ne_nil]

theorem fileIn_eq_some_iff : d.fileIn dir name = some number ↔
    d.foundIn dir name = some (.file number) := by
  rw [fileIn]
  split
  next found hfound => rw [hfound, Option.some_inj, Option.some_inj, Node.file.injEq]
  next hnone => exact iff_of_false (Option.some_ne_none number).symm (hnone number)

theorem fileIn_congr (h : d'.foundIn dir name = d.foundIn dir other) :
    d'.fileIn dir name = d.fileIn dir other := by
  rw [fileIn, h, fileIn]

theorem stat_eq_file_iff (hopens : d.Opens dir) (hname : Nameable dir name) :
    d.stat (dir.join name) = .ok (.file number) ↔ d.fileIn dir name = some number := by
  rw [fileIn_eq_some_iff, stat, hopens name hname, foundIn]
  dsimp only
  split
  next node hnode => rw [hnode, Except.ok.injEq, Option.some_inj]
  next hnone => rw [hnone]; exact iff_of_false (fun h => by cases h) (fun h => by cases h)

theorem Numbered.lt_of_fileIn (h : d.Numbered) (hfile : d.fileIn dir name = some number) :
    number < d.contents.length :=
  h.lt_of_lookup (fileIn_eq_some_iff.mp hfile)

end Finding

/-! ## Making directories -/

/-- Directories were made where nothing was. -/
structure Grows (d d' : Disk) : Prop where
  contents : d'.contents = d.contents
  lookup : ∀ place, d'.lookup place = d.lookup place ∨
    (d.lookup place = none ∧ d'.lookup place = some .directory)

section Growing

variable {d d' d'' : Disk}

theorem Grows.refl (d : Disk) : Grows d d := ⟨rfl, fun _ => Or.inl rfl⟩

theorem Grows.trans (h : Grows d d') (h' : Grows d' d'') : Grows d d'' := by
  refine ⟨h'.contents.trans h.contents, fun place => ?_⟩
  rcases h'.lookup place with heq | ⟨hnone, hmade⟩
  · rw [heq]
    exact h.lookup place
  · refine Or.inr ⟨?_, hmade⟩
    rcases h.lookup place with heq | ⟨habsent, -⟩
    · exact heq.symm.trans hnone
    · exact habsent

theorem Grows.fileIn_eq (h : Grows d d') (dir : Path) (name : String) :
    d'.fileIn dir name = d.fileIn dir name := by
  rcases h.lookup (placeIn dir name) with heq | ⟨hnone, hmade⟩
  · exact fileIn_congr heq
  · rw [fileIn, foundIn, hmade, fileIn, foundIn, hnone]

theorem grows_of_makeDirectory {names : List String} (h : d.makeDirectory names = .ok d') :
    Grows d d' := by
  rw [makeDirectory] at h
  split at h
  · cases h
  next name _ =>
      split at h
      · cases h
      next here _ =>
          split at h
          · cases h
          · split at h
            · cases h
            · split at h
              · cases h
              next habsent =>
                  cases h
                  refine ⟨rfl, fun place => ?_⟩
                  by_cases hplace : place = here ++ [name]
                  · subst hplace
                    have hroot : here ++ [name] ≠ [] := by simp
                    refine Or.inr ⟨by simpa using habsent, ?_⟩
                    rw [Disk.lookup, if_neg hroot]
                    exact Table.get?_insert_self ..
                  · refine Or.inl ?_
                    rw [Disk.lookup, Disk.lookup, Table.get?_insert_of_ne hplace]

theorem grows_makeFirst (d : Disk) (below : List (List String)) :
    Grows d (d.makeFirst below).1 := by
  induction below with
  | nil => exact .refl d
  | cons names above ih =>
      rw [makeFirst]
      split
      next hmake => exact grows_of_makeDirectory hmake
      next => exact .refl d
      next =>
          rcases hmade : d.makeFirst above with ⟨d₁, e | _⟩
          · rw [hmade] at ih
            exact ih
          · rw [hmade] at ih
            dsimp only
            split
            next hmake => exact ih.trans (grows_of_makeDirectory hmake)
            next => exact ih
            next => exact ih
      next => exact .refl d

theorem grows_makeDirectories (d : Disk) (path : Path) : Grows d (d.makeDirectories path).1 := by
  rw [makeDirectories]
  split
  · exact .refl d
  · exact grows_makeFirst d _

end Growing

/-! ## Renaming -/

section Moving

variable {d d' : Disk} {source target place : Location} {dir : Path} {name other : String}

theorem get?_cons_of_ne {key : Location} {entry : Location × Node} (h : entry.1 ≠ key)
    (entries : Table Location Node) :
    Table.get? key (entry :: entries) = Table.get? key entries := by
  rw [Table.get?, if_neg h]

/-- What a move does to the places as far from the root as its two ends: what
lies below the source is moved elsewhere. -/
theorem get?_moveBelow (hlength : target.length = source.length)
    (hplace : place.length = source.length) (hne : source ≠ target)
    (entries : Table Location Node) :
    Table.get? place (moveBelow source target (entries.erase target)) =
      if place = target then entries.get? source
      else if place = source then none
      else entries.get? place := by
  induction entries with
  | nil => simp [Table.erase, moveBelow, Table.get?]
  | cons entry rest ih =>
      obtain ⟨at_, node⟩ := entry
      by_cases hover : at_ = target
      · subst hover
        have herased : Table.erase at_ ((at_, node) :: rest) = Table.erase at_ rest :=
          List.filter_cons_of_neg (by simp)
        rw [herased, ih, get?_cons_of_ne (Ne.symm hne)]
        split
        · rfl
        next hthere => rw [get?_cons_of_ne (Ne.symm hthere)]
      · have hkept : Table.erase target ((at_, node) :: rest) =
            (at_, node) :: Table.erase target rest := List.filter_cons_of_pos (by simpa using hover)
        rw [hkept, moveBelow, List.map_cons, ← moveBelow]
        dsimp only
        by_cases hhere : at_ = source
        · subst hhere
          have hprefix : at_.isPrefixOf at_ = true := by simp
          rw [if_pos hprefix, List.drop_length, List.append_nil, Table.get?, ih]
          by_cases hthere : place = target
          · rw [if_pos hthere.symm, if_pos hthere, Table.get?, if_pos rfl]
          · rw [if_neg (Ne.symm hthere), if_neg hthere, if_neg hthere]
            split
            · rfl
            next hgone => rw [get?_cons_of_ne (Ne.symm hgone)]
        · have hskip : Table.get? source ((at_, node) :: rest) = Table.get? source rest :=
            get?_cons_of_ne hhere rest
          rw [hskip]
          split
          next hprefix =>
              obtain ⟨below, rfl⟩ := List.isPrefixOf_iff_prefix.mp hprefix
              have hbelow : 0 < below.length := by
                rw [List.length_pos_iff]
                rintro rfl
                exact hhere (List.append_nil source)
              have haway : target ++ (source ++ below).drop source.length ≠ place := by
                intro heq
                have hsame := congrArg List.length heq
                rw [List.drop_left, List.length_append] at hsame
                omega
              have hdeep : source ++ below ≠ place := by
                intro heq
                have hsame := congrArg List.length heq
                rw [List.length_append] at hsame
                omega
              rw [get?_cons_of_ne haway, ih, get?_cons_of_ne hdeep]
          next =>
              by_cases hplaced : at_ = place
              · subst hplaced
                rw [if_neg hover, if_neg hhere, Table.get?, if_pos rfl, Table.get?, if_pos rfl]
              · rw [get?_cons_of_ne hplaced, ih, get?_cons_of_ne hplaced]

/-- What is renamed is found under its new name only. -/
theorem foundIn_move (hne : name ≠ other) (dir : Path) (d : Disk) (found : String) :
    (d.move (placeIn dir name) (placeIn dir other)).foundIn dir found =
      if found = other then d.foundIn dir name
      else if found = name then none
      else d.foundIn dir found := by
  have hends : placeIn dir name ≠ placeIn dir other := fun h => hne (placeIn_injective.mp h)
  simp only [foundIn_eq_get?]
  rw [move, get?_moveBelow length_placeIn length_placeIn hends]
  simp only [placeIn_injective]

theorem move_of_renameAt (hne : source ≠ target) (h : d.renameAt source target = .ok d') :
    d' = d.move source target := by
  rw [renameAt] at h
  split at h
  · cases h
  · split at h
    · cases h
    · cases h
      rfl
  · rw [if_neg hne] at h
    cases h
    rfl
  · cases h
  · cases h
  · rw [if_neg hne] at h
    split at h
    · cases h
    · split at h
      · cases h
      · cases h
        rfl

end Moving

/-! ## Creating a file -/

section Creating

variable {d d' : Disk} {dir path : Path} {name : String} {place : Location} {number : Nat}

theorem create_of_lookup_none (hlocate : d.locate path = .ok place)
    (hnone : d.lookup place = none) : d.create path =
      .ok (d.contents.length,
        ⟨d.entries.insert place (.file d.contents.length), d.contents ++ [[]]⟩) := by
  simp only [create, hlocate, hnone]

theorem locate_of_create (h : d.create path = .ok (number, d')) :
    ∃ place, d.locate path = .ok place := by
  rw [create] at h
  split at h
  · cases h
  next place hlocate => exact ⟨place, hlocate⟩

/-- The other names do not notice what is entered under a name. -/
theorem foundIn_insert (d : Disk) (dir : Path) (name : String) (node : Node)
    (contents : List Content) (found : String) :
    (⟨d.entries.insert (placeIn dir name) node, contents⟩ : Disk).foundIn dir found =
      if found = name then some node else d.foundIn dir found := by
  rw [foundIn_eq_get?, foundIn_eq_get?]
  by_cases hfound : found = name
  · rw [if_pos hfound, hfound]
    exact Table.get?_insert_self ..
  · rw [if_neg hfound]
    exact Table.get?_insert_of_ne (fun h => hfound (placeIn_injective.mp h)) ..

end Creating

end Disk

end SessionEngine

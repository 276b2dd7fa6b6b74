import SessionEngine.Proofs.Files.Directory
import SessionEngine.Proofs.Transfer.Start

/-!
# Room for a file that is received

A file that is received gets a new file in the directory, and what was there
under its name is renamed. `Stored` says all that this does to the disk if
nothing fails: which files are found in the directory under which names, and
that the contents of the files that were there stay as they are, also of those
that are renamed or replaced while somebody has them open.
-/

namespace SessionEngine

namespace Transfer

namespace Transfers

/-- The name under which a file of this name is kept. -/
def backupName (name : String) : String := name ++ ".bak"

/-- Whether something is there that has to be renamed. -/
def backsUp (disk : Disk) (dir : Path) (name : String) : Bool :=
  (disk.makeDirectories dir).1.present (dir.join name)

def backUpFails (disk : Disk) (dir : Path) (name : String) : Bool :=
  backsUp disk dir name &&
    match (disk.makeDirectories dir).1.rename (dir.join name)
      ((dir.join name).sibling (backupName name)) with
    | .ok _ => false
    | .error _ => true

/-- What making room for a file does to the disk, if nothing fails. The file
gets the next number. -/
structure Stored (disk : Disk) (dir : Path) (name : String) (size : Nat) (disk' : Disk) : Prop where
  numbered : disk'.Numbered
  length : disk'.contents.length = disk.contents.length + 1
  others : ∀ number < disk.contents.length, disk'.content number = disk.content number
  zero : (disk'.content disk.contents.length).toBytes = List.replicate size 0
  opens : disk'.Opens dir
  nameable : Disk.Nameable dir name
  files : ∀ found, disk'.fileIn dir found =
    if found = name then some disk.contents.length
    else if found = backupName name ∧ backsUp disk dir name = true then disk.fileIn dir name
    else disk.fileIn dir found

section Storing

variable {disk disk' made backed : Disk} {dir : Path} {name : String} {size number : Nat}

theorem length_backupName (name : String) : (backupName name).length = name.length + 4 := by
  rw [backupName, String.length_append]
  rfl

theorem ne_backupName (name : String) : name ≠ backupName name := by
  intro heq
  have hlength := length_backupName name
  rw [← heq] at hlength
  omega

/-- The name of a backup leads neither nowhere nor elsewhere. -/
theorem backupName_ne_points (name : String) : backupName name ≠ "." ∧ backupName name ≠ ".." := by
  have hlength := length_backupName name
  constructor
  · intro heq
    rw [heq, show ".".length = 1 from rfl] at hlength
    omega
  · intro heq
    rw [heq, show "..".length = 2 from rfl] at hlength
    omega

theorem way_sibling (dir : Path) (name other : String) :
    ((dir.join name).sibling other).way = dir.names ++ [other] := Path.names_sibling_join ..

/-- The two ends of the rename that makes a backup. -/
theorem renameAt_of_rename (hpoint : name ≠ ".") (hup : name ≠ "..")
    (hrename : made.rename (dir.join name) ((dir.join name).sibling (backupName name)) =
      .ok backed) :
    made.renameAt (Disk.placeIn dir name) (Disk.placeIn dir (backupName name)) = .ok backed := by
  rw [Disk.rename] at hrename
  split at hrename
  · cases hrename
  · cases hrename
  next source target hsource htarget =>
      obtain ⟨hbak, hbak'⟩ := backupName_ne_points name
      obtain ⟨rfl, -⟩ := Disk.eq_placeIn_of_locate rfl hpoint hup hsource
      obtain ⟨rfl, -⟩ := Disk.eq_placeIn_of_locate (way_sibling ..) hbak hbak' htarget
      exact hrename

theorem placeIn_ne_backup (dir : Path) (name : String) :
    Disk.placeIn dir name ≠ Disk.placeIn dir (backupName name) :=
  fun heq => ne_backupName name (Disk.placeIn_injective.mp heq)

/-- What is there is moved to the name of its backup. -/
theorem backUp_eq_move (hpoint : name ≠ ".") (hup : name ≠ "..")
    (hpresent : made.present (dir.join name) = true)
    (hrename : made.rename (dir.join name) ((dir.join name).sibling (backupName name)) =
      .ok backed) :
    backUp made dir name =
      made.move (Disk.placeIn dir name) (Disk.placeIn dir (backupName name)) := by
  have hbacked : backUp made dir name = backed := by
    have hrename' : made.rename (dir.join name) ((dir.join name).sibling (name ++ ".bak")) =
        .ok backed := hrename
    simp only [backUp, hpresent, hrename', if_true]
  rw [hbacked]
  exact Disk.move_of_renameAt (placeIn_ne_backup dir name) (renameAt_of_rename hpoint hup hrename)

theorem backUp_of_absent (h : ¬ backsUp disk dir name = true) :
    backUp (disk.makeDirectories dir).1 dir name = (disk.makeDirectories dir).1 := if_neg h

/-- What is found under each name when something was backed up, if something
was there. -/
theorem foundIn_backUp (hpoint : name ≠ ".") (hup : name ≠ "..")
    (hbackUp : backUpFails disk dir name = false) :
    (backUp (disk.makeDirectories dir).1 dir name).contents = disk.contents ∧
      ∀ found, (backUp (disk.makeDirectories dir).1 dir name).foundIn dir found =
        if backsUp disk dir name = true then
          if found = backupName name then (disk.makeDirectories dir).1.foundIn dir name
          else if found = name then none
          else (disk.makeDirectories dir).1.foundIn dir found
        else (disk.makeDirectories dir).1.foundIn dir found := by
  have hcontents := (Disk.grows_makeDirectories disk dir).contents
  by_cases hpresent : backsUp disk dir name = true
  · rw [backUpFails, hpresent, Bool.true_and] at hbackUp
    split at hbackUp
    next renamed hrename =>
        rw [backUp_eq_move hpoint hup hpresent hrename]
        refine ⟨hcontents, fun found => ?_⟩
        rw [if_pos hpresent]
        exact Disk.foundIn_move (ne_backupName name) dir _ found
    next => cases hbackUp
  · rw [backUp_of_absent hpresent]
    refine ⟨hcontents, fun found => ?_⟩
    rw [if_neg hpresent]

/-- Nothing is left under the name for which room is made. -/
theorem foundIn_backUp_self (hpoint : name ≠ ".") (hup : name ≠ "..")
    (hbackUp : backUpFails disk dir name = false) {place : Location}
    (hlocate : (backUp (disk.makeDirectories dir).1 dir name).locate (dir.join name) = .ok place) :
    (backUp (disk.makeDirectories dir).1 dir name).foundIn dir name = none := by
  rw [(foundIn_backUp hpoint hup hbackUp).2 name]
  by_cases hpresent : backsUp disk dir name = true
  · rw [if_pos hpresent, if_neg (ne_backupName name), if_pos rfl]
  · rw [if_neg hpresent]
    rw [backUp_of_absent hpresent] at hlocate
    obtain ⟨rfl, -⟩ := Disk.eq_placeIn_of_locate rfl hpoint hup hlocate
    cases hfound : (disk.makeDirectories dir).1.foundIn dir name with
    | none => rfl
    | some node =>
        have hstat := Disk.stat_of_locate hlocate hfound
        rw [backsUp, Disk.present, hstat] at hpresent
        exact absurd rfl hpresent

/-- What is found under each name when a file was entered after the backup. -/
theorem fileIn_backUp_insert (hpoint : name ≠ ".") (hup : name ≠ "..")
    (hbackUp : backUpFails disk dir name = false) (contents : List Content) (found : String) :
    (⟨(backUp (disk.makeDirectories dir).1 dir name).entries.insert (Disk.placeIn dir name)
        (.file number), contents⟩ : Disk).fileIn dir found =
      if found = name then some number
      else if found = backupName name ∧ backsUp disk dir name = true then disk.fileIn dir name
      else disk.fileIn dir found := by
  have hgrown := Disk.grows_makeDirectories disk dir
  have hfound := (foundIn_backUp hpoint hup hbackUp).2 found
  have hinserted := Disk.foundIn_insert (backUp (disk.makeDirectories dir).1 dir name) dir name
    (.file number) contents found
  by_cases hself : found = name
  · rw [if_pos hself] at hinserted ⊢
    exact Disk.fileIn_eq_some_iff.mpr hinserted
  · rw [if_neg hself, hfound, if_neg hself] at hinserted
    rw [if_neg hself]
    by_cases hbacked : backsUp disk dir name = true
    · rw [if_pos hbacked] at hinserted
      by_cases hbackup : found = backupName name
      · rw [if_pos hbackup] at hinserted
        rw [if_pos ⟨hbackup, hbacked⟩, ← hgrown.fileIn_eq]
        exact Disk.fileIn_congr hinserted
      · rw [if_neg hbackup] at hinserted
        rw [if_neg (fun h => hbackup h.1), ← hgrown.fileIn_eq]
        exact Disk.fileIn_congr hinserted
    · rw [if_neg hbacked] at hinserted
      rw [if_neg (fun h => hbacked h.2), ← hgrown.fileIn_eq]
      exact Disk.fileIn_congr hinserted

theorem stored_of_openTarget (hnumbered : disk.Numbered) (hpoint : name ≠ ".") (hup : name ≠ "..")
    (hbackUp : backUpFails disk dir name = false)
    (h : openTarget disk dir name size = (disk', .ok number)) :
    number = disk.contents.length ∧ Stored disk dir name size disk' := by
  obtain ⟨hstat, -, hzero, hnumbered'⟩ := stat_of_openTarget hnumbered h
  obtain ⟨created, hcreate, rfl⟩ := openTarget_cases h
  obtain ⟨hcontents, -⟩ := foundIn_backUp hpoint hup hbackUp
  obtain ⟨place, hlocate⟩ := Disk.locate_of_create hcreate
  have hnone := foundIn_backUp_self hpoint hup hbackUp hlocate
  obtain ⟨rfl, -⟩ := Disk.eq_placeIn_of_locate rfl hpoint hup hlocate
  rw [Disk.create_of_lookup_none hlocate hnone, hcontents] at hcreate
  cases hcreate
  obtain ⟨place, hplace, -⟩ := Disk.exists_of_stat hstat
  refine ⟨rfl, hnumbered', ?_, fun other hother => ?_, hzero, ?_, ?_, ?_⟩
  · rw [Disk.length_contents_resize, List.length_append]
    rfl
  · refine (Disk.content_modify_of_ne (Nat.ne_of_lt hother) _).trans ?_
    rw [Disk.content, Disk.content, List.getElem?_append_left hother]
  · exact Disk.opens_of_locate hpoint hup hplace
  · exact Disk.nameable_of_locate hpoint hup hplace
  · exact fileIn_backUp_insert hpoint hup hbackUp _

end Storing

end Transfers

end Transfer

end SessionEngine

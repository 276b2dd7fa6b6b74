import SessionEngine.Proofs.Files.Outside
import SessionEngine.Proofs.Transfer.Storing

/-!
# What making room changes

Making room for a file can fail at every stage, and what was done before stays.
`Room` says what all stages have in common, so that it need not be said which
of them were reached: only the name and the name of its backup are touched, no
other file is written to, and a file that was on the disk before is found in the
directory only where it was or where the backup is. This goes from stage to
stage (`Room.trans`), and `room_openTarget` chains the stages.
-/

namespace SessionEngine

namespace Disk

/-- At or below an entry of a directory that has one of these names. -/
def Inside (names : String → Prop) (dir : Path) (place : Location) : Prop :=
  ∃ name, names name ∧ placeIn dir name <+: place

end Disk

namespace Transfer

namespace Transfers

/-- The names that are touched when room is made for a file. -/
def Touched (name found : String) : Prop := found = name ∨ found = backupName name

/-- What is done to a disk to make room for a file, perhaps not to the end. -/
structure Room (dir : Path) (name : String) (d d' : Disk) : Prop where
  outside : Disk.Keeps (fun place => ¬Disk.Inside (Touched name) dir place) (Disk.OnWay dir) d d'
  length : d.contents.length ≤ d'.contents.length
  contents : ∀ number < d.contents.length, d.fileIn dir name ≠ some number →
    d'.content number = d.content number
  /-- A file that is not new was in the directory, under this name or its own. -/
  found : ∀ number < d.contents.length, ∀ found, d'.fileIn dir found = some number →
    d.fileIn dir found = some number ∨ d.fileIn dir name = some number

section Stages

variable {d d' d'' : Disk} {dir : Path} {name : String}

theorem Room.refl (dir : Path) (name : String) (d : Disk) : Room dir name d d where
  outside := .refl _ _ d
  length := Nat.le_refl _
  contents _ _ _ := rfl
  found _ _ _ h := .inl h

theorem Room.own (h : Room dir name d d') {number : Nat} (hnumber : number < d.contents.length)
    (hfile : d'.fileIn dir name = some number) : d.fileIn dir name = some number :=
  (h.found number hnumber name hfile).elim id id

theorem Room.trans (h : Room dir name d d') (h' : Room dir name d' d'') : Room dir name d d'' where
  outside := h.outside.trans h'.outside
  length := Nat.le_trans h.length h'.length
  contents number hnumber hother := by
    have hlater := Nat.lt_of_lt_of_le hnumber h.length
    rw [h'.contents number hlater fun hfile => hother (h.own hnumber hfile),
      h.contents number hnumber hother]
  found number hnumber found hfile := by
    rcases h'.found number (Nat.lt_of_lt_of_le hnumber h.length) found hfile with hsame | hname
    · exact h.found number hnumber found hsame
    · exact .inr (h.own hnumber hname)

theorem room_makeDirectories (d : Disk) (dir : Path) (name : String) :
    Room dir name d (d.makeDirectories dir).1 := by
  have hgrown := Disk.grows_makeDirectories d dir
  refine ⟨(Disk.keeps_makeDirectories d dir).mono fun _ _ => trivial, ?_, fun number _ _ => ?_,
    fun number _ found hfile => .inl ?_⟩
  · exact Nat.le_of_eq (congrArg List.length hgrown.contents).symm
  · rw [Disk.content, Disk.content, hgrown.contents]
  · rw [← hgrown.fileIn_eq]
    exact hfile

theorem backUp_cases (hpoint : name ≠ ".") (hup : name ≠ "..") (d : Disk) (dir : Path) :
    backUp d dir name = d ∨
      backUp d dir name = d.move (Disk.placeIn dir name) (Disk.placeIn dir (backupName name)) := by
  by_cases hpresent : d.present (dir.join name) = true
  · cases hrename : d.rename (dir.join name) ((dir.join name).sibling (backupName name)) with
    | ok backed => exact .inr (backUp_eq_move hpoint hup hpresent hrename)
    | error e =>
        have hrename' : d.rename (dir.join name) ((dir.join name).sibling (name ++ ".bak")) =
            .error e := hrename
        exact .inl (by simp only [backUp, hpresent, hrename', if_true])
  · exact .inl (if_neg hpresent)

theorem room_move (dir : Path) (name : String) (d : Disk) :
    Room dir name d (d.move (Disk.placeIn dir name) (Disk.placeIn dir (backupName name))) := by
  have hmoved := Disk.foundIn_move (ne_backupName name) dir d
  refine ⟨fun place hplace => .inl ?_, Nat.le_refl _, fun number _ _ => rfl,
    fun number _ found hfile => ?_⟩
  · exact Disk.lookup_move (fun hprefix => hplace ⟨name, .inl rfl, hprefix⟩)
      (fun hprefix => hplace ⟨backupName name, .inr rfl, hprefix⟩)
  · rw [Disk.fileIn_eq_some_iff, hmoved] at hfile
    split at hfile
    · exact .inr (Disk.fileIn_eq_some_iff.mpr hfile)
    · split at hfile
      · cases hfile
      · exact .inl (Disk.fileIn_eq_some_iff.mpr hfile)

theorem room_backUp (hpoint : name ≠ ".") (hup : name ≠ "..") (d : Disk) (dir : Path) :
    Room dir name d (backUp d dir name) := by
  rcases backUp_cases hpoint hup d dir with heq | heq
  · rw [heq]
    exact .refl dir name d
  · rw [heq]
    exact room_move dir name d

/-- Writing to the file under the name changes that file only. -/
theorem room_write {number : Nat} (hfile : d.fileIn dir name = some number)
    {contents : List Content} (hlength : contents.length = d.contents.length)
    (hothers : ∀ other, other ≠ number → contents[other]? = d.contents[other]?) :
    Room dir name d { d with contents } := by
  refine ⟨fun place _ => .inl rfl, Nat.le_of_eq hlength.symm, fun other _ hother => ?_,
    fun other _ found h => .inl h⟩
  have hne : other ≠ number := by
    rintro rfl
    exact hother hfile
  rw [Disk.content, Disk.content, hothers other hne]

theorem room_resize {number : Nat} (hfile : d.fileIn dir name = some number) (length : Nat) :
    Room dir name d (d.resize number length) :=
  room_write hfile (List.length_modify ..) fun _ hne => List.getElem?_modify_ne _ _ (Ne.symm hne)

theorem room_insert (dir : Path) (name : String) (d : Disk) :
    Room dir name d ⟨d.entries.insert (Disk.placeIn dir name) (.file d.contents.length),
      d.contents ++ [[]]⟩ := by
  have hfound := Disk.foundIn_insert d dir name (.file d.contents.length) (d.contents ++ [[]])
  refine ⟨fun place hplace => .inl ?_, ?_, fun number hnumber _ => ?_,
    fun number hnumber found hfile => ?_⟩
  · rw [Disk.lookup_insert Disk.placeIn_ne_nil, if_neg]
    rintro rfl
    exact hplace ⟨name, .inl rfl, List.prefix_refl _⟩
  · rw [List.length_append]
    exact Nat.le_add_right _ _
  · rw [Disk.content, Disk.content, List.getElem?_append_left hnumber]
  · rw [Disk.fileIn_eq_some_iff, hfound] at hfile
    split at hfile
    · -- the file that was entered is new
      cases hfile
      exact absurd hnumber (Nat.lt_irrefl _)
    · exact .inl (Disk.fileIn_eq_some_iff.mpr hfile)

theorem room_create (hpoint : name ≠ ".") (hup : name ≠ "..") {number : Nat}
    (h : d.create (dir.join name) = .ok (number, d')) :
    Room dir name d d' ∧ d'.fileIn dir name = some number := by
  obtain ⟨place, hlocate⟩ := Disk.locate_of_create h
  obtain ⟨rfl, -⟩ := Disk.eq_placeIn_of_locate rfl hpoint hup hlocate
  cases hlookup : d.lookup (Disk.placeIn dir name) with
  | none =>
      rw [Disk.create_of_lookup_none hlocate hlookup] at h
      cases h
      refine ⟨room_insert dir name d, Disk.fileIn_eq_some_iff.mpr ?_⟩
      rw [Disk.foundIn_insert, if_pos rfl]
  | some node =>
      rw [Disk.create, hlocate] at h
      dsimp only at h
      rw [hlookup] at h
      cases node with
      | directory => cases h
      | file found =>
          cases h
          have hfile : d.fileIn dir name = some number := Disk.fileIn_eq_some_iff.mpr hlookup
          exact ⟨room_write hfile List.length_set fun _ hne => List.getElem?_set_ne (Ne.symm hne),
            hfile⟩

/-- A file that is opened is under its name, and whatever becomes of the attempt,
no more than room for it is made. -/
theorem room_openTarget (hpoint : name ≠ ".") (hup : name ≠ "..") (d : Disk) (dir : Path)
    (size : Nat) :
    Room dir name d (openTarget d dir name size).1 ∧
      ∀ number, (openTarget d dir name size).2 = .ok number →
        (openTarget d dir name size).1.fileIn dir name = some number := by
  have hmade := room_makeDirectories d dir name
  rw [openTarget]
  generalize d.makeDirectories dir = making at hmade
  obtain ⟨made, e | _⟩ := making
  · exact ⟨hmade, fun _ hopened => by cases hopened⟩
  · have hbacked : Room dir name d (backUp made dir name) :=
      hmade.trans (room_backUp hpoint hup made dir)
    dsimp only
    cases hcreate : (backUp made dir name).create (dir.join name) with
    | error e => exact ⟨hbacked, fun _ hopened => by cases hopened⟩
    | ok opened =>
        obtain ⟨number, created⟩ := opened
        obtain ⟨hroom, hfile⟩ := room_create hpoint hup hcreate
        have hcreated := hbacked.trans hroom
        dsimp only
        rw [Disk.setLength]
        by_cases hlength : size ≤ Disk.maxFileLength
        · rw [if_pos hlength]
          refine ⟨hcreated.trans (room_resize hfile size), fun other hother => ?_⟩
          cases hother
          exact hfile
        · rw [if_neg hlength]
          exact ⟨hcreated, fun _ hopened => by cases hopened⟩

/-! ## Requests -/

theorem receive_of_refusedName {request : Request} {error : TransferError}
    (hname : FileName.sanitize request.fileName = .error error) (t : Transfers) (d : Disk)
    (dir : Path) : t.receive d dir request = (t, d, .error error) := by
  have hrefused : acceptedName request = .error error := by simp only [acceptedName, hname]
  simp only [receive, hrefused]

/-- A request makes room for the name that is left of the one in it, and opens
no other file. -/
theorem room_receive {request : Request} (hname : FileName.sanitize request.fileName = .ok name)
    (t : Transfers) (d : Disk) (dir : Path) :
    Room dir name d (t.receive d dir request).2.1 ∧
      ∀ entry ∈ (t.receive d dir request).1.book, entry ∈ t.book ∨
        ∀ number, entry.2.file = some number →
          (t.receive d dir request).2.1.fileIn dir name = some number := by
  obtain ⟨-, hpoint, hup, -⟩ := FileName.safe_of_sanitize hname
  obtain ⟨hroom, hopened⟩ := room_openTarget hpoint hup d dir request.fileSize.toNat
  cases haccepted : acceptedName request with
  | error e =>
      have heq : t.receive d dir request = (t, d, .error e) := by
        simp only [receive, haccepted]
      rw [heq]
      exact ⟨.refl dir name d, fun _ hmem => .inl hmem⟩
  | ok accepted =>
      obtain rfl : accepted = name :=
        Except.ok.inj ((acceptedName_cases haccepted).1.symm.trans hname)
      rcases htarget : openTarget d dir accepted request.fileSize.toNat with ⟨d', e | number⟩
      · have heq : t.receive d dir request = (t, d', .error e) := by
          simp only [receive, haccepted, htarget]
        rw [htarget] at hroom
        rw [heq]
        exact ⟨hroom, fun _ hmem => .inl hmem⟩
      · rw [htarget] at hroom hopened
        rw [receive_of_openTarget t haccepted htarget]
        refine ⟨hroom, fun entry hmem => ?_⟩
        have hentry : entry ∈ enter t.nextId (.ofRequest (dir.join accepted) number request)
            t.book := by
          split at hmem
          · rw [book_report] at hmem
            exact hmem
          · exact hmem
        rcases mem_enter hentry with rfl | hold
        · refine .inr fun other hfile => ?_
          rw [Record.ofRequest] at hfile
          dsimp only at hfile
          split at hfile
          · cases hfile
          · cases hfile
            exact hopened number rfl
        · exact .inl hold

end Stages

end Transfers

end Transfer

end SessionEngine

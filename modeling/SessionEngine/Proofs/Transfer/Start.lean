import SessionEngine.Proofs.Files.Disk
import SessionEngine.Proofs.Transfer.Book
import SessionEngine.Proofs.Transfer.Message

/-!
# How transfers start

A transfer enters the book with a record that is settled by its announcement
(`Record.ofSource`, `Record.ofRequest`), under an id that was not in the book
before. `send_cases` and `receive_cases` say all that an announcement can do
to the transfers; `send_of_openSource` and `receive_of_openTarget` say what it
does where the file operations succeed.
-/

namespace SessionEngine

namespace Transfer

namespace Record

def ofSource (path : Path) (number size chunkSize chunksTotal : Nat) : Record where
  direction := .sending
  path := path
  file := some number
  fileSize := size
  bytesTransferred := 0
  chunkSize := chunkSize
  chunksTotal := chunksTotal
  chunksCompleted := 0
  completed := false

/-- A file that was announced. -/
def ofRequest (path : Path) (number : Nat) (request : Request) : Record where
  direction := .receiving request.id
  path := path
  file := if decide (request.fileSize = 0) = true then none else some number
  fileSize := request.fileSize.toNat
  bytesTransferred := 0
  chunkSize := request.chunkSize.toNat
  chunksTotal := request.chunksTotal.toNat
  chunksCompleted := 0
  completed := request.fileSize = 0

end Record

namespace Transfers

/-- What holds of every book that came about by operations. -/
structure Sound (t : Transfers) : Prop where
  listening : t.listening = true
  distinct : t.book.Distinct
  fresh : t.get? t.nextId = none

@[simp] theorem nextId_add (record : Record) (t : Transfers) :
    (t.add record).2.nextId = t.nextId + 1 := rfl

@[simp] theorem reports_add (record : Record) (t : Transfers) :
    (t.add record).2.reports = t.reports := rfl

@[simp] theorem get?_add_self (record : Record) (t : Transfers) :
    (t.add record).2.get? t.nextId = some record :=
  get?_enter_self t.nextId record t.book

theorem get?_add_of_ne {id : TransferId} {t : Transfers} (h : id ≠ t.nextId) (record : Record) :
    (t.add record).2.get? id = t.get? id :=
  get?_enter_of_ne h record t.book

/-! ## Counting chunks -/

/-- The number of chunks of a file, rounded up. -/
theorem toNat_of_chunkCount {size chunkSize : Nat} {total : UInt32}
    (h : chunkCount size chunkSize = .ok total) :
    total.toNat = (size + (chunkSize - 1)) / chunkSize := by
  simp only [chunkCount] at h
  split at h
  next hlt =>
      cases h
      exact UInt32.toNat_ofNat_of_lt' hlt
  next => cases h

theorem le_mul_of_chunkCount {size chunkSize : Nat} {total : UInt32} (hpos : 0 < chunkSize)
    (h : chunkCount size chunkSize = .ok total) : size ≤ total.toNat * chunkSize := by
  rw [toNat_of_chunkCount h]
  have hdivision := Nat.div_add_mod' (size + (chunkSize - 1)) chunkSize
  have hrest := Nat.mod_lt (size + (chunkSize - 1)) hpos
  omega

/-! ## Sending -/

/-- The announcement of a file. -/
def requestOf (name : String) (size chunkSize : Nat) (chunksTotal : UInt32) (id : TransferId) :
    Request where
  fileName := name
  fileSize := UInt64.ofNat size
  chunksTotal := chunksTotal
  chunkSize := UInt32.ofNat chunkSize
  id := id

theorem send_of_openSource {disk : Disk} {path : Path} {requested : UInt32} {number size : Nat}
    {name : String} {chunksTotal : UInt32} {frame : Bytes} (t : Transfers)
    (hsource : openSource disk path = .ok (number, name, size))
    (hcount : chunkCount size (effectiveChunkSize requested) = .ok chunksTotal)
    (hframe : Frame.build? Kind.request.id
      (requestOf name size (effectiveChunkSize requested) chunksTotal t.nextId).body =
        some frame) :
    t.send disk path requested =
      ((t.add (.ofSource path number size (effectiveChunkSize requested) chunksTotal.toNat)).2,
        .ok (t.nextId, frame)) := by
  rw [requestOf] at hframe
  simp only [send, hsource, hcount, hframe]
  rfl

/-- Announcing a file either changes nothing, or wastes an id, or starts a
transfer. -/
theorem send_cases (disk : Disk) (path : Path) (requested : UInt32) (t : Transfers) :
    (∃ e, t.send disk path requested = (t, .error e)) ∨
      (∃ e, t.send disk path requested = ({ t with nextId := t.nextId + 1 }, .error e)) ∨
      ∃ number size chunkSize chunksTotal frame, t.send disk path requested =
        ((t.add (.ofSource path number size chunkSize chunksTotal)).2,
          .ok (t.nextId, frame)) := by
  rw [send]
  split
  next e _ => exact Or.inl ⟨e, rfl⟩
  next number name size _ =>
      dsimp only
      split
      next e _ => exact Or.inl ⟨e, rfl⟩
      next total _ =>
          split
          next => exact Or.inr (Or.inl ⟨_, rfl⟩)
          next frame _ => exact Or.inr (Or.inr ⟨number, size, _, total.toNat, frame, rfl⟩)

theorem stat_of_openSource {disk : Disk} {path : Path} {number size : Nat} {name : String}
    (h : openSource disk path = .ok (number, name, size)) :
    disk.stat path = .ok (.file number) ∧ size = (disk.content number).toBytes.length := by
  rw [openSource] at h
  split at h
  · cases h
  · cases h
  next hstat =>
      split at h
      · cases h
      · cases h
        exact ⟨hstat, (Content.length_toBytes _).symm⟩

/-- A file that was announced could be opened, and its chunks counted. -/
theorem source_of_send {disk : Disk} {path : Path} {requested : UInt32} {t : Transfers}
    {id : TransferId} {frame : Bytes} (h : (t.send disk path requested).2 = .ok (id, frame)) :
    ∃ number name size chunksTotal, openSource disk path = .ok (number, name, size) ∧
      chunkCount size (effectiveChunkSize requested) = .ok chunksTotal ∧ id = t.nextId ∧
      (t.send disk path requested).1 =
        (t.add
          (.ofSource path number size (effectiveChunkSize requested) chunksTotal.toNat)).2 := by
  cases hopen : openSource disk path with
  | error e =>
      simp only [send, hopen] at h
      cases h
  | ok source =>
      obtain ⟨number, name, size⟩ := source
      cases hcount : chunkCount size (effectiveChunkSize requested) with
      | error e =>
          simp only [send, hopen, hcount] at h
          cases h
      | ok chunksTotal =>
          obtain ⟨built, hbuilt⟩ := (requestOf name size (effectiveChunkSize requested) chunksTotal
            t.nextId).exists_frame
          rw [send_of_openSource t hopen hcount hbuilt] at h ⊢
          cases h
          exact ⟨number, name, size, chunksTotal, rfl, hcount, rfl, rfl⟩

/-! ## Receiving -/

theorem receive_of_openTarget {disk disk' : Disk} {dir : Path} {request : Request}
    {name : String} {number : Nat} (t : Transfers) (hname : acceptedName request = .ok name)
    (htarget : openTarget disk dir name request.fileSize.toNat = (disk', .ok number)) :
    t.receive disk dir request =
      (if decide (request.fileSize = 0) = true then
          (t.add (.ofRequest (dir.join name) number request)).2.report t.nextId true
            (dir.join name)
        else (t.add (.ofRequest (dir.join name) number request)).2, disk', .ok t.nextId) := by
  simp only [receive, hname, htarget]
  rfl

/-- A file that is announced is refused, or entered; an empty one is reported
at once. -/
theorem receive_cases (disk : Disk) (dir : Path) (request : Request) (t : Transfers) :
    (∃ disk' e, t.receive disk dir request = (t, disk', .error e)) ∨
      ∃ disk' name number, acceptedName request = .ok name ∧
        openTarget disk dir name request.fileSize.toNat = (disk', .ok number) ∧
        t.receive disk dir request =
          (if decide (request.fileSize = 0) = true then
              (t.add (.ofRequest (dir.join name) number request)).2.report t.nextId true
                (dir.join name)
            else (t.add (.ofRequest (dir.join name) number request)).2, disk', .ok t.nextId) := by
  cases hname : acceptedName request with
  | error e =>
      refine Or.inl ⟨disk, e, ?_⟩
      simp only [receive, hname]
  | ok name =>
      rcases htarget : openTarget disk dir name request.fileSize.toNat with ⟨disk', e | number⟩
      · refine Or.inl ⟨disk', e, ?_⟩
        simp only [receive, hname, htarget]
      · exact Or.inr ⟨disk', name, number, rfl, htarget, receive_of_openTarget t hname htarget⟩

/-! ## Opening files -/

theorem openSource_of_bytesAt? {disk : Disk} {path : Path} {name : String} {bytes : Bytes}
    (hname : path.fileName? = some name) (h : disk.bytesAt? path = some bytes) :
    ∃ number, openSource disk path = .ok (number, name, bytes.length) ∧
      (disk.content number).toBytes = bytes ∧ disk.stat path = .ok (.file number) := by
  rw [Disk.bytesAt?] at h
  split at h
  next number hstat =>
      cases h
      refine ⟨number, ?_, rfl, hstat⟩
      simp only [openSource, hstat, hname, Disk.lengthOf, Content.length_toBytes]
  next => cases h

theorem openTarget_cases {disk disk' : Disk} {dir : Path} {name : String} {size number : Nat}
    (h : openTarget disk dir name size = (disk', .ok number)) :
    ∃ created, (backUp (disk.makeDirectories dir).1 dir name).create (dir.join name) =
        .ok (number, created) ∧ disk' = created.resize number size := by
  rcases hdirs : disk.makeDirectories dir with ⟨made, e | _⟩
  · simp only [openTarget, hdirs] at h
    cases h
  · simp only [openTarget, hdirs] at h
    split at h
    · cases h
    next other created hcreate =>
        rw [Disk.setLength] at h
        split at h
        · cases h
        next resized hresize =>
            split at hresize
            · cases hresize
              cases h
              exact ⟨created, hcreate, rfl⟩
            · cases hresize

theorem numbered_backUp {disk : Disk} (h : disk.Numbered) (dir : Path) (name : String) :
    (backUp disk dir name).Numbered := by
  rw [backUp]
  split
  · split
    next hrename => exact h.rename hrename
    next => exact h
  · exact h

/-- A file made for an announcement is found where it belongs, all zero. -/
theorem stat_of_openTarget {disk disk' : Disk} {dir : Path} {name : String} {size number : Nat}
    (hnumbered : disk.Numbered)
    (h : openTarget disk dir name size = (disk', .ok number)) :
    disk'.stat (dir.join name) = .ok (.file number) ∧ number < disk'.contents.length ∧
      (disk'.content number).toBytes = List.replicate size 0 ∧ disk'.Numbered := by
  obtain ⟨created, hcreate, rfl⟩ := openTarget_cases h
  have hbacked := numbered_backUp (hnumbered.makeDirectories dir) dir name
  obtain ⟨hstat, hlt, hempty, hcreated⟩ := Disk.stat_of_create hbacked hcreate
  have hentries : (created.resize number size).entries = created.entries := rfl
  refine ⟨Disk.stat_of_entries_eq hentries hstat, ?_, ?_, ?_⟩
  · rw [Disk.length_contents_resize]
    exact hlt
  · have hnil : Content.toBytes [] = [] := rfl
    rw [Disk.content_resize hlt, hempty, Content.toBytes_resize, Bytes.padTo, hnil,
      List.take_nil, List.nil_append, List.length_nil, Nat.sub_zero]
  · intro entry hmem other hfile
    rw [Disk.length_contents_resize]
    exact hcreated entry hmem other hfile

/-! ## What is accepted -/

theorem acceptedName_eq {request : Request} {name : String}
    (hname : FileName.sanitize request.fileName = .ok name) (hpos : request.chunkSize ≠ 0)
    (hcount : chunkCount request.fileSize.toNat request.chunkSize.toNat =
      .ok request.chunksTotal) : acceptedName request = .ok name := by
  simp only [acceptedName, hname, if_neg hpos, hcount, if_true]

theorem acceptedName_cases {request : Request} {name : String}
    (h : acceptedName request = .ok name) :
    FileName.sanitize request.fileName = .ok name ∧ request.chunkSize ≠ 0 ∧
      chunkCount request.fileSize.toNat request.chunkSize.toNat = .ok request.chunksTotal := by
  simp only [acceptedName] at h
  split at h
  · cases h
  next base hbase =>
      split at h
      · cases h
      next hpos =>
          split at h
          · cases h
          next expected hcount =>
              split at h
              next heq =>
                  cases h
                  subst heq
                  exact ⟨hbase, hpos, hcount⟩
              next => cases h

theorem chunkSize_pos_of_acceptedName {request : Request} {name : String}
    (h : acceptedName request = .ok name) : 0 < request.chunkSize.toNat := by
  obtain ⟨-, hchunk, -⟩ := acceptedName_cases h
  exact Nat.pos_of_ne_zero fun hzero => hchunk (UInt32.toNat_inj.mp hzero)

section Accepted

variable {disk : Disk} {dir : Path} {request : Request} {t : Transfers} {id : TransferId}

/-- What it takes to accept an announcement. -/
theorem opened_of_receive (h : (t.receive disk dir request).2.2 = .ok id) :
    id = t.nextId ∧ ∃ disk' name number, acceptedName request = .ok name ∧
      openTarget disk dir name request.fileSize.toNat = (disk', .ok number) := by
  rcases t.receive_cases disk dir request with ⟨disk', e, heq⟩ |
    ⟨disk', name, number, hname, hopen, heq⟩
  · rw [heq] at h
    cases h
  · rw [heq] at h
    exact ⟨(Except.ok.inj h).symm, disk', name, number, hname, hopen⟩

/-- Only announcements are accepted whose chunks make up the file. -/
theorem announced_of_receive (h : (t.receive disk dir request).2.2 = .ok id) :
    request.fileSize.toNat ≤ request.chunksTotal.toNat * request.chunkSize.toNat := by
  obtain ⟨-, _, _, _, hname, -⟩ := opened_of_receive h
  exact le_mul_of_chunkCount (chunkSize_pos_of_acceptedName hname) (acceptedName_cases hname).2.2

end Accepted

end Transfers

end Transfer

end SessionEngine

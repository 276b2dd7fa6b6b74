import SessionEngine.Proofs.Transfer.Acting
import SessionEngine.Proofs.Transfer.Room

/-!
# What the other side can do to the disk

Whatever frames the other side sends, what it can create, write to, rename or
remove lies at or below an entry of the receiving directory with a safe name,
but for the directory itself and those above it, which are made if they are
missing (`confined_packets`). A chunk writes to an open file, so this is an
invariant of the whole endpoint: a file that is open for the other side was
entered in the receiving directory when it was opened, wherever it was renamed
to since (`Endpoint.Owns`).

A single request touches the name that is left of the one in it and the name of
the backup, and nothing at all if no safe name is left; the file that it opens is
the only one that the chunks of its transfer write to (`Endpoint.Touches`).
-/

namespace SessionEngine

namespace Transfer

namespace FileName

/-- The name of a backup is as safe as the name. -/
theorem Safe.backupName {name : String} (h : Safe name) : Safe (Transfers.backupName name) := by
  obtain ⟨hpoint, hup⟩ := Transfers.backupName_ne_points name
  refine ⟨fun hempty => ?_, hpoint, hup, fun c hc => ?_⟩
  · have hlength := Transfers.length_backupName name
    rw [hempty] at hlength
    cases hlength
  · rw [Transfers.backupName, String.toList_append] at hc
    rcases List.mem_append.mp hc with hname | hsuffix
    · exact h.2.2.2 c hname
    · have hchars : ".bak".toList = ['.', 'b', 'a', 'k'] := rfl
      rw [hchars] at hsuffix
      simp only [List.mem_cons, List.not_mem_nil, or_false] at hsuffix
      rcases hsuffix with rfl | rfl | rfl | rfl <;> rfl

theorem Safe.touched {name found : String} (h : Safe name) (hfound : Transfers.Touched name found) :
    Safe found := by
  rcases hfound with rfl | rfl
  · exact h
  · exact h.backupName

end FileName

namespace Endpoint

variable {e e' e'' : Endpoint}

/-- A file that the other side may write to: it is in the receiving directory,
or open to be received. -/
def Owns (e : Endpoint) (number : Nat) : Prop :=
  (∃ name, FileName.Safe name ∧ e.disk.fileIn e.receiveDir name = some number) ∨
    ∃ entry ∈ e.transfers.book, entry.2.peer?.isSome ∧ entry.2.file = some number

/-- What changes is in the receiving directory. -/
structure Confined (e e' : Endpoint) : Prop where
  receiveDir : e'.receiveDir = e.receiveDir
  /-- Entries that are not there stay, and only directories on the way are made. -/
  outside : Disk.Keeps (fun place => ¬Disk.Inside FileName.Safe e.receiveDir place)
    (Disk.OnWay e.receiveDir) e.disk e'.disk
  length : e.disk.contents.length ≤ e'.disk.contents.length
  owns : ∀ number < e.disk.contents.length, e'.Owns number → e.Owns number
  /-- Files that are not there keep their contents. -/
  contents : ∀ number < e.disk.contents.length, ¬e.Owns number →
    e'.disk.content number = e.disk.content number

theorem Confined.refl (e : Endpoint) : Confined e e where
  receiveDir := rfl
  outside := .refl _ _ e.disk
  length := Nat.le_refl _
  owns _ _ h := h
  contents _ _ _ := rfl

theorem Confined.trans (h : Confined e e') (h' : Confined e' e'') : Confined e e'' where
  receiveDir := h'.receiveDir.trans h.receiveDir
  outside := by
    have houtside := h'.outside
    rw [h.receiveDir] at houtside
    exact h.outside.trans houtside
  length := Nat.le_trans h.length h'.length
  owns number hnumber howns :=
    h.owns number hnumber (h'.owns number (Nat.lt_of_lt_of_le hnumber h.length) howns)
  contents number hnumber hother := by
    have hlater := Nat.lt_of_lt_of_le hnumber h.length
    rw [h'.contents number hlater fun howns => hother (h.owns number hnumber howns),
      h.contents number hnumber hother]

section Steps

variable {transfers : Transfers} {disk : Disk} {name : String}

/-- Making room for a file under a safe name is confined, if no other file is
opened. -/
theorem confined_of_room (hsafe : FileName.Safe name)
    (hroom : Transfers.Room e.receiveDir name e.disk disk)
    (hbook : ∀ entry ∈ transfers.book, entry ∈ e.transfers.book ∨
      ∀ number, entry.2.file = some number → disk.fileIn e.receiveDir name = some number) :
    Confined e { e with transfers, disk } where
  receiveDir := rfl
  outside := hroom.outside.mono fun _ hplace ⟨found, htouched, hprefix⟩ =>
    hplace ⟨found, hsafe.touched htouched, hprefix⟩
  length := hroom.length
  owns number hnumber howns := by
    rcases howns with ⟨found, hfound, hfile⟩ | ⟨entry, hmem, hpeer, hfile⟩
    · rcases hroom.found number hnumber found hfile with hsame | hname
      · exact .inl ⟨found, hfound, hsame⟩
      · exact .inl ⟨name, hsafe, hname⟩
    · rcases hbook entry hmem with hold | hnew
      · exact .inr ⟨entry, hold, hpeer, hfile⟩
      · exact .inl ⟨name, hsafe, hroom.own hnumber (hnew number hfile)⟩
  contents number hnumber hother :=
    hroom.contents number hnumber fun hfile => hother (.inl ⟨name, hsafe, hfile⟩)

/-- Writing to files of the other side is confined, if no other file is opened. -/
theorem confined_of_entries_eq (hentries : disk.entries = e.disk.entries)
    (hlength : disk.contents.length = e.disk.contents.length)
    (hcontents : ∀ number, ¬e.Owns number → disk.content number = e.disk.content number)
    (hbook : ∀ entry ∈ transfers.book, entry ∈ e.transfers.book ∨
      ∀ number, entry.2.file = some number → e.Owns number) :
    Confined e { e with transfers, disk } where
  receiveDir := rfl
  outside place _ := .inl (Disk.lookup_of_entries_eq hentries place)
  length := Nat.le_of_eq hlength.symm
  owns number _ howns := by
    rcases howns with ⟨found, hfound, hfile⟩ | ⟨entry, hmem, hpeer, hfile⟩
    · have hsame : disk.foundIn e.receiveDir found = e.disk.foundIn e.receiveDir found :=
        Disk.lookup_of_entries_eq hentries _
      rw [Disk.fileIn_congr hsame] at hfile
      exact .inl ⟨found, hfound, hfile⟩
    · rcases hbook entry hmem with hold | hnew
      · exact .inr ⟨entry, hold, hpeer, hfile⟩
      · exact hnew number hfile
  contents number _ hother := hcontents number hother

/-- Taking transfers out is confined. -/
theorem confined_of_book (hbook : ∀ entry ∈ transfers.book, entry ∈ e.transfers.book) :
    Confined e { e with transfers } := by
  have hentries : e.disk.entries = e.disk.entries := rfl
  exact confined_of_entries_eq hentries rfl (fun _ _ => rfl) fun entry hmem =>
    .inl (hbook entry hmem)

end Steps

/-! ## Frames -/

theorem onRequest_eq (request : Request) (e : Endpoint) : (e.onRequest request).1 =
    { e with
      transfers := (e.transfers.receive e.disk e.receiveDir request).1
      disk := (e.transfers.receive e.disk e.receiveDir request).2.1 } := by
  rw [onRequest]
  split
  next heq => rw [heq]
  next heq => rw [heq]

theorem onChunk_eq (writer : FileWriter) (chunk : Chunk) (payload : Bytes) (e : Endpoint) :
    (e.onChunk writer chunk payload).1 =
      { e with
        transfers := (e.transfers.takeChunkBy writer e.disk chunk payload).1
        disk := (e.transfers.takeChunkBy writer e.disk chunk payload).2.1 } := by
  rw [onChunk]
  split
  next heq => rw [heq]
  next heq => rw [heq]
  next heq => rw [heq]

theorem disk_onRefusal (id : TransferId) (e : Endpoint) : (e.onRefusal id).disk = e.disk := by
  rw [onRefusal]
  split <;> rfl

theorem confined_onRequest (request : Request) (e : Endpoint) :
    Confined e (e.onRequest request).1 := by
  rw [onRequest_eq]
  cases hname : FileName.sanitize request.fileName with
  | error error =>
      rw [Transfers.receive_of_refusedName hname]
      exact .refl e
  | ok name =>
      obtain ⟨hroom, hbook⟩ := Transfers.room_receive hname e.transfers e.disk e.receiveDir
      exact confined_of_room (FileName.safe_of_sanitize hname) hroom hbook

/-- A chunk writes to the open file of a transfer that is received, if the
system can write at all. -/
theorem confined_onChunk (writer : FileWriter) (chunk : Chunk) (payload : Bytes) (e : Endpoint) :
    Confined e (e.onChunk writer chunk payload).1 := by
  rw [onChunk_eq]
  cases htarget : e.transfers.target? chunk.id with
  | none =>
      rw [Transfers.takeChunkBy_of_no_target htarget]
      exact .refl e
  | some target =>
      obtain ⟨id, record⟩ := target
      obtain ⟨hmem, hpeer, -⟩ := Transfers.mem_of_target? htarget
      have howns {number : Nat} (hfile : record.file = some number) : e.Owns number :=
        .inr ⟨(id, record), hmem, Option.isSome_of_eq_some hpeer, hfile⟩
      have hbook : ∀ entry ∈ (e.transfers.takeChunkBy writer e.disk chunk payload).1.book,
          entry ∈ e.transfers.book ∨ ∀ number, entry.2.file = some number → e.Owns number := by
        intro entry hentry
        refine (Transfers.book_takeChunkBy htarget hentry).imp_right fun hfile number hnumber => ?_
        exact howns (hfile number hnumber)
      rcases Transfers.disk_takeChunkBy htarget writer e.disk payload with
        heq | ⟨number, bytes, hfile, heq⟩
      · rw [heq]
        exact confined_of_entries_eq rfl rfl (fun _ _ => rfl) hbook
      · rw [heq]
        refine confined_of_entries_eq rfl (Disk.length_contents_write ..)
          (fun other hother => Disk.content_modify_of_ne ?_ _) hbook
        rintro rfl
        exact hother (howns hfile)

theorem confined_onRefusal (id : TransferId) (e : Endpoint) : Confined e (e.onRefusal id) := by
  rw [onRefusal]
  split
  next target _ =>
      refine confined_of_book fun entry hentry => ?_
      rw [Transfers.abort] at hentry
      split at hentry
      · rw [Transfers.book_report] at hentry
        exact (List.mem_filter.mp hentry).1
      · exact hentry
  next => exact .refl e

theorem confined_packetBy (writer : FileWriter) (frame : Bytes) (e : Endpoint) :
    Confined e (e.packetBy writer frame).1 := by
  cases hread : Message.read? frame with
  | none =>
      rcases Message.packetBy_of_read?_none hread writer e with heq | heq
      · rw [heq]
        exact .refl e
      · rw [heq]
        exact .refl e
  | some message =>
      rw [Message.packetBy_of_read? hread]
      cases message with
      | request request => exact confined_onRequest request e
      | chunk chunk payload => exact confined_onChunk writer chunk payload e
      | error id => exact confined_onRefusal id e
      | response id =>
          -- a chunk is due, and that is all
          exact ⟨rfl, .refl _ _ e.disk, Nat.le_refl _, fun _ _ h => h, fun _ _ _ => rfl⟩
      | complete id => exact .refl e

/-- A frame that arrives, and how the system writes then. -/
structure Arrival where
  writer : FileWriter
  frame : Bytes

def arrive (e : Endpoint) (arrival : Arrival) : Endpoint × List Action :=
  e.packetBy arrival.writer arrival.frame

def packets (e : Endpoint) (arrivals : List Arrival) : Endpoint :=
  arrivals.foldl (fun e arrival => (e.arrive arrival).1) e

/-! ## What a single frame touches -/

/-- What a frame does to the disk of an endpoint. -/
structure Touches (e : Endpoint) (arrival : Arrival) : Prop where
  /-- A request makes room for the name that is left of the one in it, which is
  safe, and opens no file but the one under that name. -/
  request : ∀ request name, Message.read? arrival.frame = some (.request request) →
    FileName.sanitize request.fileName = .ok name →
    FileName.Safe name ∧ Transfers.Room e.receiveDir name e.disk (e.arrive arrival).1.disk ∧
      ∀ entry ∈ (e.arrive arrival).1.transfers.book, entry ∈ e.transfers.book ∨
        ∀ number, entry.2.file = some number →
          (e.arrive arrival).1.disk.fileIn e.receiveDir name = some number
  /-- If no name is left, it does nothing. -/
  refused : ∀ request error, Message.read? arrival.frame = some (.request request) →
    FileName.sanitize request.fileName = .error error → (e.arrive arrival).1.disk = e.disk
  /-- A chunk writes to the file that its transfer has open, and to no other. -/
  chunk : ∀ chunk payload, Message.read? arrival.frame = some (.chunk chunk payload) →
    (e.arrive arrival).1.disk.entries = e.disk.entries ∧
      ∀ number, (∀ target, e.transfers.target? chunk.id = some target →
        target.2.file ≠ some number) →
          (e.arrive arrival).1.disk.content number = e.disk.content number
  /-- Any other frame does nothing. -/
  others : (∀ request, Message.read? arrival.frame ≠ some (.request request)) →
    (∀ chunk payload, Message.read? arrival.frame ≠ some (.chunk chunk payload)) →
    (e.arrive arrival).1.disk = e.disk

theorem arrive_of_request {arrival : Arrival} {request : Request}
    (h : Message.read? arrival.frame = some (.request request)) (e : Endpoint) :
    (e.arrive arrival).1 =
      { e with
        transfers := (e.transfers.receive e.disk e.receiveDir request).1
        disk := (e.transfers.receive e.disk e.receiveDir request).2.1 } := by
  have hanswer : e.arrive arrival = e.onRequest request :=
    Message.packetBy_of_read? h arrival.writer e
  rw [hanswer, onRequest_eq]

theorem touches (e : Endpoint) (arrival : Arrival) : e.Touches arrival where
  request request name hread hname := by
    obtain ⟨hroom, hbook⟩ := Transfers.room_receive hname e.transfers e.disk e.receiveDir
    rw [arrive_of_request hread]
    dsimp only
    exact ⟨FileName.safe_of_sanitize hname, hroom, hbook⟩
  refused request error hread hname := by
    rw [arrive_of_request hread, Transfers.receive_of_refusedName hname]
  chunk chunk payload hread := by
    have hanswer : e.arrive arrival = e.onChunk arrival.writer chunk payload :=
      Message.packetBy_of_read? hread arrival.writer e
    rw [hanswer, onChunk_eq]
    dsimp only
    cases htarget : e.transfers.target? chunk.id with
    | none =>
        rw [Transfers.takeChunkBy_of_no_target htarget]
        exact ⟨rfl, fun _ _ => rfl⟩
    | some target =>
        rcases Transfers.disk_takeChunkBy htarget arrival.writer e.disk payload with
          heq | ⟨number, bytes, hfile, heq⟩
        · rw [heq]
          exact ⟨rfl, fun _ _ => rfl⟩
        · rw [heq]
          refine ⟨rfl, fun other hother => Disk.content_modify_of_ne ?_ _⟩
          rintro rfl
          exact hother target rfl hfile
  others hrequest hchunk := by
    rw [arrive]
    cases hread : Message.read? arrival.frame with
    | none =>
        rcases Message.packetBy_of_read?_none hread arrival.writer e with heq | heq
        · rw [heq]
        · rw [heq]
    | some message =>
        rw [Message.packetBy_of_read? hread]
        cases message with
        | request request => exact absurd hread (hrequest request)
        | chunk chunk payload => exact absurd hread (hchunk chunk payload)
        | error id => exact disk_onRefusal id e
        | response id | complete id => rfl

/-- Whatever frames come, what changes is in the receiving directory, and the
next frame touches what belongs to its own name. This holds also if the system
gives up writing on the way. -/
theorem confined_packets (e : Endpoint) (arrivals : List Arrival) :
    Confined e (e.packets arrivals) ∧ ∀ arrival, (e.packets arrivals).Touches arrival := by
  refine ⟨?_, touches (e.packets arrivals)⟩
  induction arrivals generalizing e with
  | nil => exact .refl e
  | cons arrival arrivals ih =>
      exact (confined_packetBy arrival.writer arrival.frame e).trans (ih (e.arrive arrival).1)

end Endpoint

end Transfer

end SessionEngine

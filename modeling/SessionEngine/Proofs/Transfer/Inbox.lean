import SessionEngine.Proofs.Transfer.Parcel
import SessionEngine.Proofs.Transfer.Reports
import SessionEngine.Proofs.Transfer.Storing

/-!
# Files that are received into one directory

Any number of files are received into one directory, under any names, each of
them chunk by chunk, and nothing fails (`Inbox.run?`). Each file has a number of
its own and gets the bytes that were sent for it, whatever happens to its name
in the meantime.

What happens to its name is that a file which is announced later takes it, or
pushes another file onto it by a backup (`Arrival.displacedBy`). Nothing ever
comes back to a name that it was displaced from, since backups only get longer
names (`Arrival.Kept`). So a file is reported when it has come, and the path
that is reported leads to it exactly if its name was left alone (`found_run`).
-/

namespace SessionEngine

namespace Transfer

open Transfers

structure Arrival extends Parcel where
  ownId : TransferId
  name : String
  number : Nat
  /-- How many chunks have come. -/
  come : Nat
  /-- Whether another file has taken the name. -/
  displaced : Bool

namespace Arrival

def announced (parcel : Parcel) (ownId : TransferId) (name : String) (number : Nat) : Arrival :=
  { parcel with ownId, name, number, come := 0, displaced := false }

/-- The arrival after room was made for another file. -/
def displacedBy (disk : Disk) (dir : Path) (name : String) (a : Arrival) : Arrival :=
  { a with
    displaced := a.displaced ||
      (a.name = name || (a.name = backupName name && backsUp disk dir name)) }

/-- The arrival after a chunk has come for one of this id. -/
def fed (id : TransferId) (a : Arrival) : Arrival :=
  if a.ownId = id then { a with come := a.come + 1 } else a

section Feeding

variable (id : TransferId) (a : Arrival)

@[simp] theorem ownId_fed : (a.fed id).ownId = a.ownId := by
  rw [fed]
  split <;> rfl

@[simp] theorem name_fed : (a.fed id).name = a.name := by
  rw [fed]
  split <;> rfl

@[simp] theorem number_fed : (a.fed id).number = a.number := by
  rw [fed]
  split <;> rfl

end Feeding

end Arrival

/-- A directory into which files are received. -/
structure Inbox where
  dir : Path
  transfers : Transfers
  disk : Disk
  arrivals : List Arrival

namespace Inbox

def empty (dir : Path) (disk : Disk) : Inbox where
  dir := dir
  transfers := Transfers.empty true
  disk := disk
  arrivals := []

inductive Event where
  | start (fileName : String) (parcel : Parcel)
  /-- The next chunk of a file comes. -/
  | feed (id : TransferId)

/-- A file is announced. A name that cannot be used changes nothing. -/
def start? (fileName : String) (parcel : Parcel) (inbox : Inbox) : Option Inbox :=
  let (transfers, disk, outcome) :=
    inbox.transfers.receive inbox.disk inbox.dir (parcel.request fileName)
  match FileName.sanitize fileName, outcome with
  | .error _, _ => some { inbox with transfers, disk }
  | .ok _, .error _ => none
  | .ok name, .ok id =>
      if backUpFails inbox.disk inbox.dir name then none
      else some { inbox with
        transfers, disk
        arrivals := inbox.arrivals.map (·.displacedBy inbox.disk inbox.dir name) ++
          [.announced parcel id name inbox.disk.contents.length] }

/-- The next chunk of a file comes, and belongs to no other. -/
def feed? (id : TransferId) (inbox : Inbox) : Option Inbox :=
  match inbox.arrivals.find? fun a => a.ownId = id with
  | none => none
  | some a =>
      if a.come < a.chunksTotal.toNat ∧
          (inbox.transfers.target? a.id).map Prod.fst = some id then
        let (transfers, disk, _) :=
          inbox.transfers.takeChunk inbox.disk (a.chunk a.come) (a.slice a.come)
        some { inbox with transfers, disk, arrivals := inbox.arrivals.map (·.fed id) }
      else none

def step? (inbox : Inbox) : Event → Option Inbox
  | .start fileName parcel => inbox.start? fileName parcel
  | .feed id => inbox.feed? id

def run? (inbox : Inbox) (events : List Event) : Option Inbox := events.foldlM step? inbox

end Inbox

/-! ## What is kept -/

def Arrival.report (dir : Path) (a : Arrival) : Report := ⟨a.ownId, true, (dir.join a.name).text⟩

/-- What holds of a file that is received, whatever happens to the others. -/
structure Arrival.Kept (inbox : Inbox) (a : Arrival) : Prop where
  nameable : Disk.Nameable inbox.dir a.name
  given : givenOf inbox.arrivals.length a.ownId = true
  number_lt : a.number < inbox.disk.contents.length
  come_le : a.come ≤ a.chunksTotal.toNat
  content : (inbox.disk.content a.number).toBytes = a.written a.come
  record : a.come < a.chunksTotal.toNat →
    inbox.transfers.get? a.ownId = some (a.incoming (inbox.dir.join a.name) a.number a.come)
  found : inbox.disk.fileIn inbox.dir a.name = some a.number ↔ a.displaced = false
  /-- Only a file that was announced later takes the name. -/
  taken : a.displaced = true → ∃ b ∈ inbox.arrivals,
    a.ownId < b.ownId ∧ (b.name = a.name ∨ backupName b.name = a.name)
  /-- Backups only get longer names. -/
  longer : ∀ name, inbox.disk.fileIn inbox.dir name = some a.number → a.name.length ≤ name.length
  reported : a.come = a.chunksTotal.toNat → a.report inbox.dir ∈ inbox.transfers.reports

structure Inbox.Sound (inbox : Inbox) : Prop where
  disk : inbox.disk.Numbered
  transfers : Numbered inbox.arrivals.length inbox.transfers
  opens : inbox.arrivals ≠ [] → inbox.disk.Opens inbox.dir
  kept : ∀ a ∈ inbox.arrivals, a.Kept inbox
  apart : ∀ a ∈ inbox.arrivals, ∀ b ∈ inbox.arrivals,
    a.ownId = b.ownId ∨ a.number = b.number → a = b

/-- The reports that a step makes are those of files that have come. -/
def Inbox.Reports (before after : Inbox) : Prop :=
  ∃ reports, after.transfers.reports = before.transfers.reports ++ reports ∧
    ∀ report ∈ reports, ∃ a ∈ after.arrivals, a.come = a.chunksTotal.toNat ∧
      report = a.report after.dir

namespace Inbox

theorem sound_empty (dir : Path) {disk : Disk} (h : disk.Numbered) : (empty dir disk).Sound where
  disk := h
  transfers := numbered_empty
  opens hne := absurd rfl hne
  kept _ hmem := by cases hmem
  apart _ hmem := by cases hmem

/-! ## A file is announced -/

/-- The transfers after a file was announced that got this number. -/
def entering (parcel : Parcel) (path : Path) (number : Nat) (t : Transfers) : Transfers :=
  if parcel.chunksTotal.toNat = 0 then
    (t.add (parcel.incoming path number 0).finish).2.report t.nextId true path
  else (t.add (parcel.incoming path number 0)).2

section Entering

variable {n number : Nat} {t : Transfers} {parcel : Parcel} {path : Path}

theorem numbered_entering (h : Numbered n t) (hn : n + 1 < UInt32.size) (parcel : Parcel)
    (path : Path) (number : Nat) : Numbered (n + 1) (entering parcel path number t) := by
  rw [entering]
  split
  · exact (h.add hn _).report _ _ _
  · exact h.add hn _

theorem get?_entering_self (hmore : 0 < parcel.chunksTotal.toNat) :
    (entering parcel path number t).get? t.nextId = some (parcel.incoming path number 0) := by
  rw [entering, if_neg (Nat.ne_of_gt hmore)]
  exact get?_add_self _ t

theorem get?_entering_of_ne {id : TransferId} (h : id ≠ t.nextId) :
    (entering parcel path number t).get? id = t.get? id := by
  rw [entering]
  split
  · rw [get?_report]
    exact get?_add_of_ne h _
  · exact get?_add_of_ne h _

/-- An empty file has come when it is announced. -/
theorem reports_entering (hl : t.listening = true) (parcel : Parcel) (path : Path) (number : Nat) :
    (entering parcel path number t).reports =
      t.reports ++ if parcel.chunksTotal.toNat = 0 then [⟨t.nextId, true, path.text⟩] else [] := by
  rw [entering]
  split
  · exact reports_report (by exact hl) ..
  · exact (List.append_nil _).symm

end Entering

section Starting

variable {inbox after : Inbox} {fileName : String} {parcel : Parcel}

/-- The inbox after a file was announced and room was made for it. -/
def started (parcel : Parcel) (name : String) (disk : Disk) (inbox : Inbox) : Inbox where
  dir := inbox.dir
  transfers := entering parcel (inbox.dir.join name) inbox.disk.contents.length inbox.transfers
  disk := disk
  arrivals := inbox.arrivals.map (·.displacedBy inbox.disk inbox.dir name) ++
    [.announced parcel inbox.transfers.nextId name inbox.disk.contents.length]

theorem length_started (parcel : Parcel) (name : String) (disk : Disk) (inbox : Inbox) :
    (inbox.started parcel name disk).arrivals.length = inbox.arrivals.length + 1 := by
  rw [started, List.length_append, List.length_map]
  rfl

theorem start?_cases (hdisk : inbox.disk.Numbered)
    (h : inbox.start? fileName parcel = some after) :
    after = inbox ∨ ∃ name disk, Stored inbox.disk inbox.dir name parcel.source.length disk ∧
      after = inbox.started parcel name disk := by
  rw [start?] at h
  cases hname : FileName.sanitize fileName with
  | error e =>
      have hrefused : inbox.transfers.receive inbox.disk inbox.dir (parcel.request fileName) =
          (inbox.transfers, inbox.disk, .error e) := by
        have hname' : FileName.sanitize (parcel.request fileName).fileName = .error e := hname
        simp only [receive, acceptedName, hname']
      rw [hrefused, hname] at h
      cases h
      exact Or.inl rfl
  | ok name =>
      obtain ⟨-, hpoint, hup, -⟩ := FileName.safe_of_sanitize hname
      rcases inbox.transfers.receive_cases inbox.disk inbox.dir (parcel.request fileName) with
        ⟨disk, e, heq⟩ | ⟨disk, base, number, hbase, htarget, heq⟩
      · rw [heq, hname] at h
        cases h
      · rw [Parcel.acceptedName_request hname] at hbase
        cases hbase
        rw [heq, hname] at h
        dsimp only at h
        split at h
        · cases h
        next hbackUp =>
            rw [parcel.toNat_fileSize] at htarget
            obtain ⟨rfl, hstored⟩ := stored_of_openTarget hdisk hpoint hup
              (Bool.not_eq_true _ ▸ hbackUp) htarget
            have hempty := parcel.fileSize_request_eq_zero_iff fileName
            rw [Parcel.ofRequest_request] at h
            cases h
            refine Or.inr ⟨name, disk, hstored, ?_⟩
            rw [started, entering]
            by_cases hzero : parcel.chunksTotal.toNat = 0
            · simp only [if_pos hzero, hempty.mpr hzero, decide_true, if_true]
            · simp only [if_neg hzero, mt hempty.mp hzero, decide_false, Bool.false_eq_true,
                if_false]

end Starting

end Inbox

namespace Arrival

section Displacing

variable {inbox : Inbox} {a : Arrival} {parcel : Parcel} {name : String} {disk : Disk}

/-- Where a file lies after room was made for another. -/
theorem Kept.found_displacedBy (h : a.Kept inbox)
    (hstored : Stored inbox.disk inbox.dir name parcel.source.length disk) :
    disk.fileIn inbox.dir a.name = some a.number ↔
      (a.displacedBy inbox.disk inbox.dir name).displaced = false := by
  have hother : inbox.disk.contents.length ≠ a.number := Nat.ne_of_gt h.number_lt
  rw [hstored.files, Arrival.displacedBy]
  by_cases hsame : a.name = name
  · rw [if_pos hsame, decide_eq_true hsame, Bool.true_or, Bool.or_true, Option.some_inj]
    exact iff_of_false hother Bool.noConfusion
  · rw [if_neg hsame, decide_eq_false hsame, Bool.false_or]
    by_cases hbackup : a.name = backupName name ∧ backsUp inbox.disk inbox.dir name = true
    · rw [if_pos hbackup, decide_eq_true hbackup.1, hbackup.2, Bool.and_self, Bool.or_true]
      refine iff_of_false (fun hfile => ?_) Bool.noConfusion
      have hlonger := h.longer name hfile
      rw [hbackup.1, length_backupName] at hlonger
      omega
    · have hkept : (decide (a.name = backupName name) &&
          backsUp inbox.disk inbox.dir name) = false := by
        rw [Bool.eq_false_iff, ne_eq, Bool.and_eq_true, decide_eq_true_eq]
        exact hbackup
      rw [if_neg hbackup, hkept, Bool.or_false]
      exact h.found

theorem Kept.longer_displacedBy (h : a.Kept inbox)
    (hstored : Stored inbox.disk inbox.dir name parcel.source.length disk) {other : String}
    (hfile : disk.fileIn inbox.dir other = some a.number) : a.name.length ≤ other.length := by
  rw [hstored.files] at hfile
  split at hfile
  · exact absurd (Option.some.inj hfile) (Nat.ne_of_gt h.number_lt)
  · split at hfile
    next hbackup =>
        rw [hbackup.1, length_backupName]
        exact Nat.le_add_right_of_le (h.longer name hfile)
    next => exact h.longer other hfile

theorem Kept.taken_displacedBy (h : a.Kept inbox) (hlater : a.ownId < inbox.transfers.nextId)
    (hdisplaced : (a.displacedBy inbox.disk inbox.dir name).displaced = true) (parcel : Parcel)
    (disk : Disk) : ∃ b ∈ (inbox.started parcel name disk).arrivals,
      a.ownId < b.ownId ∧ (b.name = a.name ∨ backupName b.name = a.name) := by
  rw [Arrival.displacedBy, Bool.or_eq_true, Bool.or_eq_true, decide_eq_true_eq, Bool.and_eq_true,
    decide_eq_true_eq] at hdisplaced
  rcases hdisplaced with hbefore | hsame | ⟨hbackup, -⟩
  · obtain ⟨b, hb, hafter, hnames⟩ := h.taken hbefore
    exact ⟨_, List.mem_append_left _ (List.mem_map_of_mem hb), hafter, hnames⟩
  · exact ⟨_, List.mem_append_right _ (List.mem_singleton_self _), hlater, Or.inl hsame.symm⟩
  · exact ⟨_, List.mem_append_right _ (List.mem_singleton_self _), hlater, Or.inr hbackup.symm⟩

/-- Room for another file displaces a file or leaves it alone. -/
theorem Kept.displacedBy (h : a.Kept inbox)
    (hstored : Stored inbox.disk inbox.dir name parcel.source.length disk)
    (hlater : a.ownId < inbox.transfers.nextId) (hl : inbox.transfers.listening = true) :
    (a.displacedBy inbox.disk inbox.dir name).Kept (inbox.started parcel name disk) := by
  refine ⟨h.nameable, ?_, ?_, h.come_le, ?_, fun hmore => ?_, h.found_displacedBy hstored,
    fun hdisplaced => h.taken_displacedBy hlater hdisplaced parcel disk,
    fun _ hfile => h.longer_displacedBy hstored hfile, fun hcome => ?_⟩
  · obtain ⟨hpos, hle⟩ := of_decide_eq_true h.given
    rw [Inbox.length_started]
    exact decide_eq_true ⟨hpos, Nat.le_succ_of_le hle⟩
  · exact Nat.lt_of_lt_of_eq (Nat.lt_succ_of_lt h.number_lt) hstored.length.symm
  · exact (congrArg Content.toBytes (hstored.others a.number h.number_lt)).trans h.content
  · exact (Inbox.get?_entering_of_ne (UInt32.ne_of_lt hlater)).trans (h.record hmore)
  · exact (Inbox.reports_entering hl ..).symm ▸ List.mem_append_left _ (h.reported hcome)

/-- A file that has just been announced is all zero and lies under its name. -/
theorem kept_announced (h : inbox.Sound)
    (hstored : Stored inbox.disk inbox.dir name parcel.source.length disk)
    (hids : inbox.arrivals.length + 1 < UInt32.size) :
    (announced parcel inbox.transfers.nextId name inbox.disk.contents.length).Kept
      (inbox.started parcel name disk) := by
  have hnext : inbox.transfers.nextId.toNat = inbox.arrivals.length + 1 :=
    h.transfers.toNat_nextId hids
  refine ⟨hstored.nameable, ?_, ?_, Nat.zero_le _, ?_, ?_, ?_, fun h => Bool.noConfusion h, ?_,
    fun hempty => ?_⟩
  · rw [Inbox.length_started]
    exact decide_eq_true ⟨by rw [announced, hnext]; exact Nat.succ_pos _, Nat.le_of_eq hnext⟩
  · exact Nat.lt_of_lt_of_eq (Nat.lt_succ_self _) hstored.length.symm
  · exact hstored.zero.trans parcel.written_zero.symm
  · exact fun hmore => Inbox.get?_entering_self hmore
  · exact iff_of_true ((hstored.files name).trans (if_pos rfl)) rfl
  · intro other hfile
    have hfiles := (hstored.files other).symm.trans hfile
    split at hfiles
    next hsame => exact Nat.le_of_eq (congrArg String.length hsame.symm)
    · -- the number is new
      split at hfiles
      · exact absurd (h.disk.lt_of_fileIn hfiles) (Nat.lt_irrefl _)
      · exact absurd (h.disk.lt_of_fileIn hfiles) (Nat.lt_irrefl _)
  · have hreports := Inbox.reports_entering h.transfers.listening parcel (inbox.dir.join name)
      inbox.disk.contents.length
    have hzero : parcel.chunksTotal.toNat = 0 := hempty.symm
    rw [if_pos hzero] at hreports
    exact hreports ▸ List.mem_append_right _ (List.mem_singleton_self _)

end Displacing

end Arrival

namespace Inbox

section Starting

variable {inbox after : Inbox} {fileName : String} {parcel : Parcel}

/-- The ids are given out in ascending order. -/
theorem Sound.ownId_lt (h : inbox.Sound) (hids : inbox.arrivals.length + 1 < UInt32.size)
    {a : Arrival} (ha : a ∈ inbox.arrivals) : a.ownId < inbox.transfers.nextId := by
  obtain ⟨-, hle⟩ := of_decide_eq_true (h.kept a ha).given
  rw [UInt32.lt_iff_toNat_lt, h.transfers.toNat_nextId hids]
  exact Nat.lt_succ_of_le hle

/-- Neither the id nor the number of a new file was used before. -/
theorem Sound.fresh (h : inbox.Sound) (hids : inbox.arrivals.length + 1 < UInt32.size)
    {a : Arrival} (ha : a ∈ inbox.arrivals) :
    ¬(a.ownId = inbox.transfers.nextId ∨ a.number = inbox.disk.contents.length) := by
  rintro (heq | heq)
  · exact UInt32.ne_of_lt (h.ownId_lt hids ha) heq
  · exact Nat.ne_of_lt (h.kept a ha).number_lt heq

theorem Sound.start (h : inbox.Sound) (hstart : inbox.start? fileName parcel = some after)
    (hids : after.arrivals.length < UInt32.size) : after.Sound ∧ inbox.Reports after := by
  rcases start?_cases h.disk hstart with rfl | ⟨name, disk, hstored, rfl⟩
  · exact ⟨h, [], (List.append_nil _).symm, fun _ hmem => by cases hmem⟩
  · rw [length_started] at hids
    have hfresh := fun a ha => h.fresh hids (a := a) ha
    refine ⟨⟨hstored.numbered, ?_, fun _ => hstored.opens, fun a ha => ?_, fun a ha b hb heq => ?_⟩,
      _, reports_entering h.transfers.listening .., fun report hreport => ?_⟩
    · rw [length_started]
      exact numbered_entering h.transfers hids ..
    · rcases List.mem_append.mp ha with hbefore | hnew
      · obtain ⟨b, hb, rfl⟩ := List.mem_map.mp hbefore
        exact (h.kept b hb).displacedBy hstored (h.ownId_lt hids hb) h.transfers.listening
      · obtain rfl := List.mem_singleton.mp hnew
        exact Arrival.kept_announced h hstored hids
    · rcases List.mem_append.mp ha with hbefore | hnew <;>
        rcases List.mem_append.mp hb with hbefore' | hnew'
      · obtain ⟨a', ha', rfl⟩ := List.mem_map.mp hbefore
        obtain ⟨b', hb', rfl⟩ := List.mem_map.mp hbefore'
        rw [h.apart a' ha' b' hb' heq]
      · obtain ⟨a', ha', rfl⟩ := List.mem_map.mp hbefore
        obtain rfl := List.mem_singleton.mp hnew'
        exact absurd heq (hfresh a' ha')
      · obtain ⟨b', hb', rfl⟩ := List.mem_map.mp hbefore'
        obtain rfl := List.mem_singleton.mp hnew
        exact absurd (heq.imp Eq.symm Eq.symm) (hfresh b' hb')
      · rw [List.mem_singleton.mp hnew, List.mem_singleton.mp hnew']
    · split at hreport
      next hempty =>
          obtain rfl := List.mem_singleton.mp hreport
          exact ⟨_, List.mem_append_right _ (List.mem_singleton_self _), hempty.symm, rfl⟩
      next => cases hreport

end Starting

/-! ## A chunk comes -/

section Feeding

variable {inbox after : Inbox} {id : TransferId} {a b : Arrival}

/-- The transfers after a chunk has come for a file. -/
def counting (a : Arrival) (path : Path) (t : Transfers) : Transfers :=
  if a.come + 1 = a.chunksTotal.toNat then
    (t.set a.ownId (a.incoming path a.number (a.come + 1)).finish).report a.ownId true path
  else t.set a.ownId (a.incoming path a.number (a.come + 1))

/-- The inbox after a chunk has come for a file. -/
def fed (a : Arrival) (inbox : Inbox) : Inbox where
  dir := inbox.dir
  transfers := counting a (inbox.dir.join a.name) inbox.transfers
  disk := inbox.disk.write a.number (a.come * a.chunkSize) (a.slice a.come)
  arrivals := inbox.arrivals.map (·.fed a.ownId)

/-- A chunk that belongs to a file is written and counted. -/
theorem feed?_cases (h : inbox.Sound) (hfeed : inbox.feed? id = some after) :
    ∃ a ∈ inbox.arrivals, a.come < a.chunksTotal.toNat ∧ after = inbox.fed a := by
  rw [feed?] at hfeed
  split at hfeed
  · cases hfeed
  next a hfound =>
      have ha : a ∈ inbox.arrivals := List.mem_of_find?_eq_some hfound
      have hown : a.ownId = id := by simpa using List.find?_some hfound
      split at hfeed
      next hnext =>
          obtain ⟨hmore, htarget⟩ := hnext
          obtain ⟨⟨target, record⟩, hlatest, heq⟩ := Option.map_eq_some_iff.mp htarget
          obtain rfl : target = id := heq
          -- the transfer that the chunk belongs to is in the state that this file is in
          have hget := (h.kept a ha).record hmore
          have hrecord := Table.get?_of_mem h.transfers.distinct (mem_of_target? hlatest).1
          rw [hown] at hget
          obtain rfl := Option.some.inj (hrecord.symm.trans hget)
          have htake := Parcel.takeChunk_incoming hmore hlatest inbox.disk
          refine ⟨a, ha, hmore, ?_⟩
          rw [fed, counting, hown]
          by_cases hlast : a.come + 1 = a.chunksTotal.toNat
          · rw [if_pos hlast] at htake
            rw [htake] at hfeed
            cases hfeed
            rw [if_pos hlast]
          · rw [if_neg hlast] at htake
            rw [htake] at hfeed
            cases hfeed
            rw [if_neg hlast]
      next => cases hfeed

theorem numbered_counting {n : Nat} {t : Transfers} (h : Numbered n t)
    (hid : givenOf n a.ownId = true) (path : Path) : Numbered n (counting a path t) := by
  rw [counting]
  split
  · exact (h.set hid _).report _ _ _
  · exact h.set hid _

theorem get?_counting_self (h : a.come + 1 < a.chunksTotal.toNat) (path : Path) (t : Transfers) :
    (counting a path t).get? a.ownId = some (a.incoming path a.number (a.come + 1)) := by
  rw [counting, if_neg (Nat.ne_of_lt h)]
  exact get?_set_self ..

theorem get?_counting_of_ne {other : TransferId} (h : other ≠ a.ownId) (path : Path)
    (t : Transfers) : (counting a path t).get? other = t.get? other := by
  rw [counting]
  split
  · rw [get?_report]
    exact get?_set_of_ne h ..
  · exact get?_set_of_ne h ..

/-- The last chunk of a file reports it. -/
theorem reports_counting {t : Transfers} (hl : t.listening = true) (path : Path) :
    (counting a path t).reports = t.reports ++
      if a.come + 1 = a.chunksTotal.toNat then [⟨a.ownId, true, path.text⟩] else [] := by
  rw [counting]
  split
  · exact reports_report (by exact hl) ..
  · exact (List.append_nil _).symm

theorem taken_fed (h : b.Kept inbox) (hdisplaced : b.displaced = true) (a : Arrival) :
    ∃ c ∈ (inbox.fed a).arrivals,
      b.ownId < c.ownId ∧ (c.name = b.name ∨ backupName c.name = b.name) := by
  obtain ⟨c, hc, hlater, hnames⟩ := h.taken hdisplaced
  refine ⟨c.fed a.ownId, List.mem_map_of_mem hc, ?_, ?_⟩
  · rw [Arrival.ownId_fed]
    exact hlater
  · rw [Arrival.name_fed]
    exact hnames

/-- The file that the chunk is for has grown by it. -/
theorem kept_fed_self (h : a.Kept inbox) (hmore : a.come < a.chunksTotal.toNat)
    (hl : inbox.transfers.listening = true) :
    (a.fed a.ownId).Kept (inbox.fed a) := by
  rw [Arrival.fed, if_pos rfl]
  refine ⟨h.nameable, ?_, ?_, hmore, ?_, fun hmore' => get?_counting_self hmore' .., h.found,
    fun hdisplaced => taken_fed h hdisplaced a, h.longer, fun hcome => ?_⟩
  · rw [fed, List.length_map]
    exact h.given
  · exact Nat.lt_of_lt_of_eq h.number_lt (Disk.length_contents_write ..).symm
  · exact Cutting.content_write_slice hmore h.number_lt h.content
  · have hreports := reports_counting (a := a) hl (inbox.dir.join a.name)
    rw [if_pos hcome] at hreports
    exact hreports ▸ List.mem_append_right _ (List.mem_singleton_self _)

/-- No other file notices the chunk. -/
theorem kept_fed_of_ne (h : b.Kept inbox) (hid : b.ownId ≠ a.ownId) (hnumber : b.number ≠ a.number)
    (hl : inbox.transfers.listening = true) :
    (b.fed a.ownId).Kept (inbox.fed a) := by
  rw [Arrival.fed, if_neg hid]
  refine ⟨h.nameable, ?_, ?_, h.come_le, ?_, fun hmore => ?_, h.found,
    fun hdisplaced => taken_fed h hdisplaced a, h.longer, fun hcome => ?_⟩
  · rw [fed, List.length_map]
    exact h.given
  · exact Nat.lt_of_lt_of_eq h.number_lt (Disk.length_contents_write ..).symm
  · exact (congrArg Content.toBytes (Disk.content_modify_of_ne hnumber _)).trans h.content
  · exact (get?_counting_of_ne hid ..).trans (h.record hmore)
  · exact (reports_counting hl _).symm ▸ List.mem_append_left _ (h.reported hcome)

theorem Sound.feed (h : inbox.Sound) (hfeed : inbox.feed? id = some after) :
    after.Sound ∧ inbox.Reports after := by
  obtain ⟨a, ha, hmore, rfl⟩ := feed?_cases h hfeed
  have hlength : (inbox.fed a).arrivals.length = inbox.arrivals.length := List.length_map _
  refine ⟨⟨h.disk.write _ _ _, ?_, fun hne => ?_, fun b hb => ?_, fun b hb c hc heq => ?_⟩,
    _, reports_counting h.transfers.listening _, fun report hreport => ?_⟩
  · rw [hlength]
    exact numbered_counting h.transfers (h.kept a ha).given _
  · exact (h.opens (List.ne_nil_of_mem ha)).write _ _ _
  · obtain ⟨old, hold, rfl⟩ := List.mem_map.mp hb
    by_cases hsame : old.ownId = a.ownId ∨ old.number = a.number
    · obtain rfl := h.apart old hold a ha hsame
      exact kept_fed_self (h.kept old hold) hmore h.transfers.listening
    · rw [not_or] at hsame
      exact kept_fed_of_ne (h.kept old hold) hsame.1 hsame.2 h.transfers.listening
  · obtain ⟨b', hb', rfl⟩ := List.mem_map.mp hb
    obtain ⟨c', hc', rfl⟩ := List.mem_map.mp hc
    rw [Arrival.ownId_fed, Arrival.ownId_fed, Arrival.number_fed, Arrival.number_fed] at heq
    rw [h.apart b' hb' c' hc' heq]
  · split at hreport
    next hlast =>
        obtain rfl := List.mem_singleton.mp hreport
        refine ⟨_, List.mem_map_of_mem ha, ?_⟩
        rw [Arrival.fed, if_pos rfl]
        exact ⟨hlast, rfl⟩
    next => cases hreport

end Feeding

/-! ## Everything together -/

section Running

variable {inbox after : Inbox} {event : Event} {events : List Event}

theorem Sound.step (h : inbox.Sound) (hstep : inbox.step? event = some after)
    (hids : after.arrivals.length < UInt32.size) : after.Sound ∧ inbox.Reports after := by
  cases event with
  | start fileName parcel =>
      rw [step?] at hstep
      exact h.start hstep hids
  | feed id =>
      rw [step?] at hstep
      exact h.feed hstep

/-- The directory stays, and no file is forgotten. -/
theorem stays_of_step (h : inbox.step? event = some after) :
    after.dir = inbox.dir ∧ inbox.arrivals.length ≤ after.arrivals.length := by
  cases event with
  | start fileName parcel =>
      rw [step?, start?] at h
      split at h
      split at h
      · cases h
        exact ⟨rfl, Nat.le_refl _⟩
      · cases h
      · split at h
        · cases h
        · cases h
          refine ⟨rfl, ?_⟩
          rw [List.length_append, List.length_map]
          exact Nat.le_add_right _ _
  | feed id =>
      rw [step?, feed?] at h
      split at h
      · cases h
      · split at h
        · cases h
          exact ⟨rfl, Nat.le_of_eq (List.length_map _).symm⟩
        · cases h

theorem run?_cons (event : Event) (events : List Event) (inbox : Inbox) :
    inbox.run? (event :: events) = (inbox.step? event).bind fun next => next.run? events :=
  List.foldlM_cons

theorem stays_of_run (h : inbox.run? events = some after) :
    after.dir = inbox.dir ∧ inbox.arrivals.length ≤ after.arrivals.length := by
  induction events generalizing inbox with
  | nil =>
      cases h
      exact ⟨rfl, Nat.le_refl _⟩
  | cons event events ih =>
      rw [run?_cons] at h
      obtain ⟨next, hstep, hrest⟩ := Option.bind_eq_some_iff.mp h
      obtain ⟨hdir, hle⟩ := stays_of_step hstep
      obtain ⟨hdir', hle'⟩ := ih hrest
      exact ⟨hdir'.trans hdir, Nat.le_trans hle hle'⟩

theorem Sound.run (h : inbox.Sound) (hrun : inbox.run? events = some after)
    (hids : after.arrivals.length < UInt32.size) : after.Sound := by
  induction events generalizing inbox with
  | nil =>
      cases hrun
      exact h
  | cons event events ih =>
      rw [run?_cons] at hrun
      obtain ⟨next, hstep, hrest⟩ := Option.bind_eq_some_iff.mp hrun
      have hnext := Nat.lt_of_le_of_lt (stays_of_run hrest).2 hids
      exact ih (h.step hstep hnext).1 hrest

end Running

/-- A file is reported when all its chunks have come, and its bytes are those
that were sent. The path that is reported leads to them unless a file that was
announced later displaced the file, which takes its name or a name that is
backed up to it. -/
theorem found_run (dir : Path) {disk : Disk} (hdisk : disk.Numbered) (events : List Event)
    (event : Event) {inbox after : Inbox} (hrun : (empty dir disk).run? events = some inbox)
    (hstep : inbox.step? event = some after) (hids : after.arrivals.length < UInt32.size) :
    (∀ a ∈ after.arrivals, a.come = a.chunksTotal.toNat →
      a.report dir ∈ after.transfers.reports) ∧
    ∃ reports, after.transfers.reports = inbox.transfers.reports ++ reports ∧
      ∀ report ∈ reports, ∃ a ∈ after.arrivals,
        a.come = a.chunksTotal.toNat ∧ report = a.report dir ∧
        (after.disk.content a.number).toBytes = a.source ∧
        (after.disk.stat (dir.join a.name) = .ok (.file a.number) ↔ a.displaced = false) ∧
        (a.displaced = false → after.disk.bytesAt? (dir.join a.name) = some a.source) ∧
        (a.displaced = true → ∃ b ∈ after.arrivals,
          a.ownId < b.ownId ∧ (b.name = a.name ∨ backupName b.name = a.name)) := by
  obtain ⟨hstepDir, hle⟩ := stays_of_step hstep
  have hdir : after.dir = dir := hstepDir.trans (stays_of_run hrun).1
  have hsound := (sound_empty dir hdisk).run hrun (Nat.lt_of_le_of_lt hle hids)
  obtain ⟨hafter, reports, hreports, hcame⟩ := hsound.step hstep hids
  rw [hdir] at hcame
  refine ⟨fun a ha hcome => ?_, reports, hreports, fun report hreport => ?_⟩
  · rw [← hdir]
    exact (hafter.kept a ha).reported hcome
  · obtain ⟨a, ha, hcome, hreported⟩ := hcame report hreport
    have hkept := hafter.kept a ha
    have hbytes : (after.disk.content a.number).toBytes = a.source := by
      rw [hkept.content, hcome]
      exact Cutting.written_total
    have hfound : after.disk.stat (dir.join a.name) = .ok (.file a.number) ↔
        a.displaced = false := by
      rw [← hdir, Disk.stat_eq_file_iff (hafter.opens (List.ne_nil_of_mem ha)) hkept.nameable]
      exact hkept.found
    refine ⟨a, ha, hcome, hreported, hbytes, hfound, fun halone => ?_, hkept.taken⟩
    rw [Disk.bytesAt?, hfound.mpr halone]
    exact congrArg some hbytes

/-- Two files of one chunk each are announced, one after the other. -/
def twoFiles (fileName fileName' : String) : List Event :=
  [.start fileName (.single 1 [1, 2] (by decide) (by decide)),
    .start fileName' (.single 2 [3, 4, 5] (by decide) (by decide))]

theorem found_run_twoNames :
    ∃ inbox after, (empty (.ofString "in") .empty).run? (twoFiles "a" "b") = some inbox ∧
      inbox.step? (.feed 1) = some after ∧ after.transfers.reports = [⟨1, true, "in/a"⟩] ∧
      ∃ a ∈ after.arrivals, a.name = "a" ∧ a.source = [1, 2] ∧
        after.disk.bytesAt? ((Path.ofString "in").join "a") = some a.source := by
  let inbox := ((empty (.ofString "in") .empty).run? (twoFiles "a" "b")).get (by decide +kernel)
  let after := (inbox.step? (.feed 1)).get (by decide +kernel)
  have hrun : (empty (.ofString "in") .empty).run? (twoFiles "a" "b") = some inbox :=
    (Option.some_get _).symm
  have hstep : inbox.step? (.feed 1) = some after := (Option.some_get _).symm
  obtain ⟨-, reports, hreports, hfound⟩ := found_run (.ofString "in") Disk.numbered_empty
    (twoFiles "a" "b") (.feed 1) hrun hstep (by decide +kernel)
  have hnone : inbox.transfers.reports = [] := by decide +kernel
  have hone : after.transfers.reports = [⟨1, true, "in/a"⟩] := by decide +kernel
  rw [hnone, List.nil_append, hone] at hreports
  obtain ⟨a, ha, -, hreport, -, -, halone, -⟩ := hfound ⟨1, true, "in/a"⟩
    (hreports ▸ List.mem_singleton_self _)
  have hfirst : ∀ b ∈ after.arrivals, 1 = b.ownId →
      b.name = "a" ∧ b.source = [1, 2] ∧ b.displaced = false := by decide +kernel
  obtain ⟨hname, hsource, hleft⟩ := hfirst a ha (congrArg Report.id hreport)
  exact ⟨inbox, after, hrun, hstep, hone, a, ha, hname, hsource, hname ▸ halone hleft⟩

/-- A path that is reported does not always lead to the file that was sent. -/
theorem not_found_run :
    ¬ ∀ (dir : Path) (disk : Disk), disk.Numbered → ∀ (events : List Event) (event : Event)
      (inbox after : Inbox), (empty dir disk).run? events = some inbox →
        inbox.step? event = some after → after.arrivals.length < UInt32.size →
          ∀ report ∈ after.transfers.reports.drop inbox.transfers.reports.length,
            ∃ a ∈ after.arrivals, report = a.report dir ∧
              after.disk.bytesAt? (dir.join a.name) = some a.source := by
  intro hfound
  let inbox := ((empty (.ofString "in") .empty).run? (twoFiles "a" "a")).get (by decide +kernel)
  let after := (inbox.step? (.feed 1)).get (by decide +kernel)
  have hreported := hfound (.ofString "in") .empty Disk.numbered_empty (twoFiles "a" "a") (.feed 1)
    inbox after (Option.some_get _).symm (Option.some_get _).symm (by decide +kernel)
  revert hreported
  decide +kernel

end Inbox

end Transfer

end SessionEngine

import Mathlib.Algebra.Order.Floor.Div
import SessionEngine.Proofs.Files.Tree
import SessionEngine.Proofs.Transfer.Room

/-!
# What an announcement leaves behind

An announcement is refused before anything is done to the disk, or the disk
gets in the way, at any of the stages of making room; only then a transfer is
entered. So the transfers are as they were unless one was entered
(`transfers_of_refused`, `entered_of_accepted`).

What was under the name before is found under the name of its backup if it
could be renamed, with all that is below it (`lookup_backup`). Everything
outside these two names is as it was (`Room.contentAt?_of_outside`), but for
the receiving directory and those above it, which are made if they are missing.
-/

namespace SessionEngine

namespace Transfer

namespace Transfers

def heard (due : List Report) (t : Transfers) : List Report := if t.listening then due else []

theorem reports_report_heard (id : TransferId) (success : Bool) (path : Path) (t : Transfers) :
    (t.report id success path).reports = t.reports ++ t.heard [⟨id, success, path.text⟩] := by
  rw [report, heard]
  split
  next => rfl
  next => rw [List.append_nil]

theorem heard_nil (t : Transfers) : t.heard [] = [] := by
  rw [heard, ite_self]

end Transfers

/-- One more file is received: the one that was announced. -/
structure Entered (request : Request) (before after : Transfers) : Prop where
  nextId : after.nextId = before.nextId + 1
  record : ∃ path number, after.get? before.nextId = some (.ofRequest path number request)
  others : ∀ id, id ≠ before.nextId → after.get? id = before.get? id
  /-- A file without bytes is complete at once, and reported. -/
  reports : ∀ record, after.get? before.nextId = some record →
    after.reports = before.reports ++ before.heard
      (if request.fileSize = 0 then [⟨before.nextId, true, record.path.text⟩] else [])

theorem not_entered_self (request : Request) (t : Transfers) : ¬ Entered request t t := by
  intro h
  have hnext := h.nextId
  simp at hnext

namespace Transfers

variable {disk disk' made : Disk} {dir : Path} {name : String} {size number : Nat}

/-! ## The transfers -/

section Receive

variable {request : Request} {t : Transfers} {id : TransferId} {e : TransferError}

theorem receive_of_acceptedName_error (h : acceptedName request = .error e) (disk : Disk)
    (dir : Path) (t : Transfers) : t.receive disk dir request = (t, disk, .error e) := by
  simp only [receive, h]

theorem transfers_of_refused (h : (t.receive disk dir request).2.2 = .error e) :
    (t.receive disk dir request).1 = t := by
  rcases t.receive_cases disk dir request with ⟨disk', e', heq⟩ | ⟨disk', name, number, -, -, heq⟩
  · rw [heq]
  · rw [heq] at h
    cases h

theorem entered_of_accepted (h : (t.receive disk dir request).2.2 = .ok id) :
    id = t.nextId ∧ Entered request t (t.receive disk dir request).1 := by
  rcases t.receive_cases disk dir request with ⟨disk', e, heq⟩ | ⟨disk', name, number, -, -, heq⟩
  · rw [heq] at h
    cases h
  · rw [heq] at h ⊢
    refine ⟨(Except.ok.inj h).symm, ?_⟩
    have hself := get?_add_self (.ofRequest (dir.join name) number request) t
    have hothers := fun other (hother : other ≠ t.nextId) =>
      get?_add_of_ne hother (.ofRequest (dir.join name) number request)
    simp only [decide_eq_true_eq]
    by_cases hempty : request.fileSize = 0
    · rw [if_pos hempty]
      refine ⟨?_, ⟨_, _, (get?_report ..).trans hself⟩, fun other hother => ?_,
        fun record hget => ?_⟩
      · rw [nextId_report, nextId_add]
      · rw [get?_report, hothers other hother]
      · cases ((get?_report ..).trans hself).symm.trans hget
        rw [if_pos hempty, reports_report_heard, reports_add]
        rfl
    · rw [if_neg hempty]
      refine ⟨rfl, ⟨_, _, hself⟩, hothers, fun record _ => ?_⟩
      rw [if_neg hempty, heard_nil, List.append_nil, reports_add]

/-! ## Refusals -/

end Receive

section Backup

variable (hpoint : name ≠ ".") (hup : name ≠ "..")

include hpoint hup

/-- In a tree, what is there is renamed to where nothing is in the way. -/
theorem clear_of_rename (htree : made.Tree) {renamed : Disk}
    (hrename : made.rename (dir.join name) ((dir.join name).sibling (backupName name)) =
      .ok renamed) :
    made.lookup (Disk.placeIn dir name) ≠ none ∧
      made.Clear (Disk.placeIn dir (backupName name)) := by
  have hends := renameAt_of_rename hpoint hup hrename
  refine ⟨fun hnone => ?_, ?_⟩
  · rw [Disk.renameAt, hnone] at hends
    cases hends
  · exact htree.clear_of_renameAt (placeIn_ne_backup dir name) Disk.placeIn_ne_nil hends

theorem tree_backUp (htree : made.Tree) : (backUp made dir name).Tree := by
  by_cases hpresent : made.present (dir.join name) = true
  · cases hrename : made.rename (dir.join name) ((dir.join name).sibling (backupName name)) with
    | ok renamed =>
        obtain ⟨hfound, hclear⟩ := clear_of_rename hpoint hup htree hrename
        rw [backUp_eq_move hpoint hup hpresent hrename]
        exact htree.move (ne_backupName name) hfound hclear
    | error e =>
        have hrename' : made.rename (dir.join name) ((dir.join name).sibling (name ++ ".bak")) =
            .error e := hrename
        simp only [backUp, hpresent, hrename', if_true]
        exact htree
  · rw [backUp, if_neg hpresent]
    exact htree

/-- Room is made in a tree, whatever becomes of the attempt. -/
theorem tree_openTarget (htree : disk.Tree) (size : Nat) :
    (openTarget disk dir name size).1.Tree := by
  have hmade := htree.makeDirectories dir
  rw [openTarget]
  generalize disk.makeDirectories dir = making at hmade
  obtain ⟨made, e | _⟩ := making
  · exact hmade
  · have hbacked : (backUp made dir name).Tree := tree_backUp hpoint hup hmade
    dsimp only
    split
    · exact hbacked
    next number created hcreate =>
        rw [Disk.setLength]
        split
        next => exact hbacked.create hcreate
        next resized hresize =>
            split at hresize
            · cases hresize
              exact (hbacked.create hcreate).resize number size
            · cases hresize

variable (hopen : openTarget disk dir name size = (disk', .ok number))

include hopen

end Backup

/-! ## Elsewhere -/

section Receive

variable {request : Request} {t : Transfers} {id : TransferId}

/-- The disk is as fit for the next announcement. -/
theorem tree_receive (htree : disk.Tree) (dir : Path) (request : Request) (t : Transfers) :
    (t.receive disk dir request).2.1.Tree := by
  cases hname : acceptedName request with
  | error e =>
      rw [receive_of_acceptedName_error hname]
      exact htree
  | ok name =>
      obtain ⟨-, hpoint, hup, -⟩ := FileName.safe_of_sanitize (acceptedName_cases hname).1
      have hopened : (openTarget disk dir name request.fileSize.toNat).1.Tree :=
        tree_openTarget hpoint hup htree _
      simp only [receive, hname]
      split
      next disk' e heq =>
          rw [heq] at hopened
          exact hopened
      next disk' number heq =>
          rw [heq] at hopened
          exact hopened

end Receive

end Transfers

end Transfer

end SessionEngine

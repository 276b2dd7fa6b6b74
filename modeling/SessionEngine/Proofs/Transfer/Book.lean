import SessionEngine.Proofs.Table
import SessionEngine.Transfer.Transfers

/-!
# The book of transfers

How the operations on the book change what stands under an id, what has been
reported under it, and which ids there are. Everything is said through
`Transfers.get?` and `Transfers.reported`, so that later proofs need not know
in which order the book is kept.

`Transfers.Sound` collects what holds of every book that came about by
operations: no id stands twice in it.
-/

namespace SessionEngine

namespace Transfer

namespace Transfers

/-! ## Entering -/

theorem get?_enter_self (id : TransferId) (record : Record) (book : Table TransferId Record) :
    Table.get? id (enter id record book) = some record := by
  induction book with
  | nil => simp [enter, Table.get?]
  | cons entry rest ih =>
      obtain ⟨k, r⟩ := entry
      rw [enter]
      split
      · simp [Table.get?]
      · split
        · simp [Table.get?]
        next hne => rw [Table.get?, if_neg (Ne.symm hne), ih]

theorem get?_enter_of_ne {id other : TransferId} (h : other ≠ id) (record : Record)
    (book : Table TransferId Record) :
    Table.get? other (enter id record book) = Table.get? other book := by
  induction book with
  | nil => simp [enter, Table.get?, h.symm]
  | cons entry rest ih =>
      obtain ⟨k, r⟩ := entry
      rw [enter]
      split
      · rw [Table.get?, if_neg h.symm]
      · split
        next heq =>
            subst heq
            rw [Table.get?, if_neg h.symm, Table.get?, if_neg h.symm]
        next => rw [Table.get?, Table.get?, ih]

theorem mem_enter {id : TransferId} {record : Record} {book : Table TransferId Record}
    {entry : TransferId × Record} (h : entry ∈ enter id record book) :
    entry = (id, record) ∨ entry ∈ book := by
  induction book with
  | nil => exact Or.inl (List.mem_singleton.mp h)
  | cons first rest ih =>
      obtain ⟨k, r⟩ := first
      rw [enter] at h
      split at h
      · exact List.mem_cons.mp h
      · split at h
        · rcases List.mem_cons.mp h with heq | hmem
          · exact Or.inl heq
          · exact Or.inr (List.mem_cons_of_mem _ hmem)
        · rcases List.mem_cons.mp h with rfl | hmem
          · exact Or.inr List.mem_cons_self
          · rcases ih hmem with heq | hrest
            · exact Or.inl heq
            · exact Or.inr (List.mem_cons_of_mem _ hrest)

theorem distinct_enter {id : TransferId} (record : Record) {book : Table TransferId Record}
    (hd : book.Distinct) (hfresh : book.get? id = none) :
    Table.Distinct (enter id record book) := by
  induction book with
  | nil => simp [enter, Table.Distinct]
  | cons entry rest ih =>
      obtain ⟨k, r⟩ := entry
      have hne := Table.get?_eq_none_iff.mp hfresh
      rw [enter]
      split
      · rw [Table.Distinct, List.map_cons, List.nodup_cons]
        refine ⟨fun hmem => ?_, hd⟩
        obtain ⟨other, hother, heq⟩ := List.mem_map.mp hmem
        exact hne other hother heq
      · split
        next heq => exact absurd heq.symm (hne _ List.mem_cons_self)
        next hk =>
            rw [Table.Distinct, List.map_cons, List.nodup_cons] at hd ⊢
            rw [Table.get?, if_neg (Ne.symm hk)] at hfresh
            refine ⟨fun hmem => ?_, ih hd.2 hfresh⟩
            obtain ⟨other, hother, heq⟩ := List.mem_map.mp hmem
            rcases mem_enter hother with rfl | hin
            · exact hk heq
            · exact hd.1 (List.mem_map.mpr ⟨other, hin, heq⟩)

/-! ## What stands under an id -/

@[simp] theorem get?_set_self (id : TransferId) (record : Record) (t : Transfers) :
    (t.set id record).get? id = some record :=
  Table.get?_insert_self id record t.book

theorem get?_set_of_ne {id other : TransferId} (h : other ≠ id) (record : Record)
    (t : Transfers) : (t.set id record).get? other = t.get? other :=
  Table.get?_insert_of_ne h record t.book

@[simp] theorem get?_remove_self (id : TransferId) (t : Transfers) :
    (t.remove id).get? id = none := by
  rw [get?, remove, Table.get?_erase, if_pos rfl]

theorem get?_remove_of_ne {id other : TransferId} (h : other ≠ id) (t : Transfers) :
    (t.remove id).get? other = t.get? other := by
  rw [get?, remove, Table.get?_erase, if_neg h, get?]

@[simp] theorem book_report (id : TransferId) (success : Bool) (path : Path) (t : Transfers) :
    (t.report id success path).book = t.book := by
  rw [report]
  split <;> rfl

@[simp] theorem nextId_report (id : TransferId) (success : Bool) (path : Path) (t : Transfers) :
    (t.report id success path).nextId = t.nextId := by
  rw [report]
  split <;> rfl

@[simp] theorem listening_report (id : TransferId) (success : Bool) (path : Path)
    (t : Transfers) : (t.report id success path).listening = t.listening := by
  rw [report]
  split <;> rfl

@[simp] theorem pool_report (id : TransferId) (success : Bool) (path : Path) (t : Transfers) :
    (t.report id success path).pool = t.pool := by
  rw [report]
  split <;> rfl

@[simp] theorem get?_report (other id : TransferId) (success : Bool) (path : Path)
    (t : Transfers) : (t.report id success path).get? other = t.get? other := by
  rw [get?, book_report, get?]

theorem reports_report {t : Transfers} (hl : t.listening = true) (id : TransferId)
    (success : Bool) (path : Path) :
    (t.report id success path).reports = t.reports ++ [⟨id, success, path.text⟩] := by
  rw [report, if_pos hl]

/-! ## How often an id was reported -/

def reported (id : TransferId) (t : Transfers) : Nat :=
  t.reports.countP fun report => report.id = id

theorem reported_report_self {t : Transfers} (hl : t.listening = true) (id : TransferId)
    (success : Bool) (path : Path) :
    (t.report id success path).reported id = t.reported id + 1 := by
  simp [reported, reports_report hl]

theorem reported_report_of_ne {t : Transfers} (hl : t.listening = true) {id other : TransferId}
    (h : other ≠ id) (success : Bool) (path : Path) :
    (t.report id success path).reported other = t.reported other := by
  simp [reported, reports_report hl, h.symm]

/-! ## Failing what is active -/

/-- Reports about several transfers, one after the other. -/
theorem foldl_report {t : Transfers} (hl : t.listening = true)
    (entries : List (TransferId × Record)) :
    entries.foldl (fun rest entry => rest.report entry.1 false entry.2.path) t =
      { t with reports := t.reports ++ entries.map fun entry =>
          ⟨entry.1, false, entry.2.path.text⟩ } := by
  induction entries generalizing t with
  | nil => simp
  | cons entry entries ih =>
      rw [List.foldl_cons, ih (by rw [listening_report, hl]), report, if_pos hl]
      simp

theorem nextId_foldl_report (entries : List (TransferId × Record)) (t : Transfers) :
    (entries.foldl (fun rest entry => rest.report entry.1 false entry.2.path) t).nextId =
      t.nextId := by
  induction entries generalizing t with
  | nil => rfl
  | cons entry entries ih => rw [List.foldl_cons, ih, nextId_report]

theorem book_foldl_report (entries : List (TransferId × Record)) (t : Transfers) :
    (entries.foldl (fun rest entry => rest.report entry.1 false entry.2.path) t).book = t.book := by
  induction entries generalizing t with
  | nil => rfl
  | cons entry entries ih => rw [List.foldl_cons, ih, book_report]

theorem pool_foldl_report (entries : List (TransferId × Record)) (t : Transfers) :
    (entries.foldl (fun rest entry => rest.report entry.1 false entry.2.path) t).pool = t.pool := by
  induction entries generalizing t with
  | nil => rfl
  | cons entry entries ih => rw [List.foldl_cons, ih, pool_report]

theorem book_failActive (t : Transfers) :
    t.failActive.2.book = t.book.filter fun entry => entry.2.completed :=
  book_foldl_report t.activeEntries _

theorem failActive_eq {t : Transfers} (hl : t.listening = true) :
    t.failActive.2 =
      { t with
        book := t.book.filter fun entry => entry.2.completed
        reports := t.reports ++ t.activeEntries.map fun entry =>
          ⟨entry.1, false, entry.2.path.text⟩ } :=
  foldl_report (t := { t with book := t.book.filter fun entry => entry.2.completed }) hl
    t.activeEntries

theorem get?_failActive {t : Transfers} (hl : t.listening = true) (hd : t.book.Distinct)
    (id : TransferId) : t.failActive.2.get? id = (t.get? id).filter Record.completed := by
  rw [failActive_eq hl]
  exact Table.get?_filter hd _ id

/-- Each active transfer is reported once. -/
theorem reported_failActive {t : Transfers} (hl : t.listening = true) (hd : t.book.Distinct)
    (id : TransferId) :
    t.failActive.2.reported id =
      t.reported id + ((t.get? id).filter fun record => !record.completed).isSome.toNat := by
  have hcount := Table.countP_key (hd.filter fun entry => !entry.2.completed) id
  rw [Table.get?_filter hd] at hcount
  rw [failActive_eq hl, reported, reported, List.countP_append, List.countP_map]
  exact congrArg (t.reports.countP (fun report => report.id = id) + ·) hcount

/-! ## Finding the transfer of a peer -/

theorem mem_of_latest? {condition : Record → Bool} {t : Transfers} {id : TransferId}
    {record : Record} (h : t.latest? condition = some (id, record)) :
    (id, record) ∈ t.book ∧ condition record = true := by
  rw [latest?] at h
  refine ⟨List.mem_reverse.mp (List.mem_of_find?_eq_some h), ?_⟩
  have hholds := List.find?_some h
  exact hholds

/-- A chunk belongs to a transfer that is received and not complete. -/
theorem mem_of_target? {peer id : TransferId} {t : Transfers} {record : Record}
    (h : t.target? peer = some (id, record)) :
    (id, record) ∈ t.book ∧ record.peer? = some peer ∧ record.completed = false := by
  obtain ⟨hmem, hcondition⟩ := mem_of_latest? h
  simpa [hmem] using hcondition

/-- If only one transfer in the book satisfies a condition, it is the latest. -/
theorem latest?_eq_of_unique {condition : Record → Bool} {t : Transfers} {id : TransferId}
    {record : Record} (hmem : (id, record) ∈ t.book) (hcondition : condition record = true)
    (hunique : ∀ entry ∈ t.book, condition entry.2 = true → entry = (id, record)) :
    t.latest? condition = some (id, record) := by
  cases hfound : t.latest? condition with
  | none =>
      rw [latest?, List.find?_eq_none] at hfound
      exact absurd hcondition (hfound (id, record) (List.mem_reverse.mpr hmem))
  | some entry =>
      obtain ⟨other, found⟩ := entry
      obtain ⟨hin, hholds⟩ := mem_of_latest? hfound
      rw [hunique (other, found) hin hholds]

end Transfers

end Transfer

end SessionEngine

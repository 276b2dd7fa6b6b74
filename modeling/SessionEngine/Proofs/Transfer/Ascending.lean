import SessionEngine.Proofs.Transfer.Operations

/-!
# The order of the book

The ids in the book are in strictly ascending order, whatever is done and
however often the ids start over (`ascending_run`). So an id stands in it at
most once, and of several transfers the latest is the one with the greatest id
(`latest?_eq_some_iff`). A chunk belongs to the transfer that `Awaits` it.
-/

namespace SessionEngine

namespace Transfer

namespace Transfers

def Ascending (book : Table TransferId Record) : Prop := (book.map Prod.fst).Pairwise (· < ·)

section Book

variable {id : TransferId} {book : Table TransferId Record}

theorem Ascending.distinct (h : Ascending book) : book.Distinct := by
  refine List.Pairwise.imp ?_ h
  rintro a _ hlt rfl
  exact UInt32.lt_irrefl a hlt

theorem Ascending.filter (h : Ascending book) (p : TransferId × Record → Bool) :
    Ascending (book.filter p) :=
  List.Pairwise.sublist (List.filter_sublist.map Prod.fst) h

theorem Ascending.enter (h : Ascending book) (id : TransferId) (record : Record) :
    Ascending (enter id record book) := by
  induction book with
  | nil => exact List.pairwise_singleton _ _
  | cons entry rest ih =>
      obtain ⟨k, r⟩ := entry
      obtain ⟨hfirst, hrest⟩ := List.pairwise_cons.mp h
      rw [Transfers.enter]
      split
      next hlt =>
          refine List.pairwise_cons.mpr ⟨fun key hkey => ?_, h⟩
          rcases List.mem_cons.mp hkey with rfl | hbehind
          · exact hlt
          · exact UInt32.lt_trans hlt (hfirst key hbehind)
      next hle =>
          split
          next heq =>
              subst heq
              exact List.pairwise_cons.mpr ⟨hfirst, hrest⟩
          next hne =>
              refine List.pairwise_cons.mpr ⟨fun key hkey => ?_, ih hrest⟩
              obtain ⟨found, hfound, rfl⟩ := List.mem_map.mp hkey
              rcases mem_enter hfound with rfl | hbehind
              · exact UInt32.lt_of_le_of_ne (UInt32.not_lt.mp hle) (Ne.symm hne)
              · exact hfirst found.1 (List.mem_map.mpr ⟨found, hbehind, rfl⟩)

/-- A new record does not change which ids there are. -/
theorem keys_insert {record : Record} (hget : book.get? id ≠ none) :
    (book.insert id record).map Prod.fst = book.map Prod.fst := by
  induction book with
  | nil => exact absurd rfl hget
  | cons entry rest ih =>
      obtain ⟨k, r⟩ := entry
      rw [Table.insert]
      by_cases hk : k = id
      · rw [if_pos hk, List.map_cons, List.map_cons, hk]
      · rw [Table.get?, if_neg hk] at hget
        rw [if_neg hk, List.map_cons, List.map_cons, ih hget]

theorem Ascending.insert (h : Ascending book) (hget : book.get? id ≠ none) (record : Record) :
    Ascending (book.insert id record) := by
  rw [Ascending, keys_insert hget]
  exact h

end Book

/-! ## The latest transfer -/

section Latest

variable {t : Transfers} {condition : Record → Bool} {id : TransferId} {record : Record}

theorem le_of_latest? (h : Ascending t.book) (hlatest : t.latest? condition = some (id, record))
    {other : TransferId} {found : Record} (hmem : (other, found) ∈ t.book)
    (hfound : condition found = true) : other ≤ id := by
  rw [latest?, List.find?_eq_some_iff_append] at hlatest
  obtain ⟨-, behind, before, hsplit, hnone⟩ := hlatest
  have horder : t.book.reverse.Pairwise fun a b => b.1 < a.1 :=
    List.pairwise_reverse.mpr (List.pairwise_map.mp h)
  rw [hsplit, List.pairwise_append, List.pairwise_cons] at horder
  rw [← List.mem_reverse, hsplit, List.mem_append, List.mem_cons] at hmem
  rcases hmem with hbehind | hself | hbefore
  · have hnot := hnone _ hbehind
    rw [hfound] at hnot
    cases hnot
  · cases hself
    exact UInt32.le_refl id
  · exact UInt32.le_of_lt (horder.2.1.1 _ hbefore)

theorem latest?_eq_some_iff (h : Ascending t.book) :
    t.latest? condition = some (id, record) ↔
      t.get? id = some record ∧ condition record = true ∧
        ∀ other found, t.get? other = some found → condition found = true → other ≤ id := by
  constructor
  · intro hlatest
    obtain ⟨hmem, hholds⟩ := mem_of_latest? hlatest
    refine ⟨Table.get?_of_mem h.distinct hmem, hholds, fun other found hother hfound => ?_⟩
    exact le_of_latest? h hlatest (Table.mem_of_get? hother) hfound
  · rintro ⟨hget, hholds, hgreatest⟩
    cases hlatest : t.latest? condition with
    | none =>
        rw [latest?, List.find?_eq_none] at hlatest
        exact absurd hholds (hlatest (id, record) (List.mem_reverse.mpr (Table.mem_of_get? hget)))
    | some entry =>
        obtain ⟨other, found⟩ := entry
        obtain ⟨hmem, hfound⟩ := mem_of_latest? hlatest
        have hother := Table.get?_of_mem h.distinct hmem
        have heq : other = id := UInt32.le_antisymm (hgreatest other found hother hfound)
          (le_of_latest? h hlatest (Table.mem_of_get? hget) hholds)
        subst heq
        cases hget.symm.trans hother
        rfl

/-- The transfer is received and not complete, and of all such transfers that
the other side announced under `peer`, it is the latest. -/
def Awaits (id peer : TransferId) (t : Transfers) : Prop :=
  (∃ record, t.get? id = some record ∧ record.peer? = some peer ∧ record.completed = false) ∧
    ∀ other found, t.get? other = some found → found.peer? = some peer →
      found.completed = false → other ≤ id

variable {peer : TransferId}

theorem target?_eq_some_iff (h : Ascending t.book) :
    t.target? peer = some (id, record) ↔ t.get? id = some record ∧ t.Awaits id peer := by
  rw [target?, latest?_eq_some_iff h, Awaits]
  simp only [Bool.and_eq_true, decide_eq_true_eq, Bool.not_eq_true']
  constructor
  · rintro ⟨hget, hholds, hgreatest⟩
    refine ⟨hget, ⟨record, hget, hholds⟩, fun other found hother hpeer hactive => ?_⟩
    exact hgreatest other found hother ⟨hpeer, hactive⟩
  · rintro ⟨hget, ⟨_, hfound, hholds⟩, hgreatest⟩
    cases hget.symm.trans hfound
    refine ⟨hget, hholds, fun other found hother hholds' => ?_⟩
    exact hgreatest other found hother hholds'.1 hholds'.2

theorem map_fst_target?_eq_some_iff (h : Ascending t.book) :
    (t.target? peer).map Prod.fst = some id ↔ t.Awaits id peer := by
  rw [Option.map_eq_some_iff]
  constructor
  · rintro ⟨⟨_, record⟩, htarget, rfl⟩
    exact ((target?_eq_some_iff h).mp htarget).2
  · intro hawaits
    obtain ⟨record, hget, -, -⟩ := hawaits.1
    exact ⟨(id, record), (target?_eq_some_iff h).mpr ⟨hget, hawaits⟩, rfl⟩

/-- No transfer is active that the other side announced under this id. -/
theorem target?_eq_none_iff (h : Ascending t.book) :
    t.target? peer = none ↔
      ∀ id record, t.get? id = some record → record.peer? = some peer →
        record.completed = true := by
  rw [target?, latest?, List.find?_eq_none]
  constructor
  · intro hnone id record hget hpeer
    have hnot := hnone (id, record) (List.mem_reverse.mpr (Table.mem_of_get? hget))
    simpa [hpeer] using hnot
  · rintro hall ⟨id, record⟩ hmem
    have hget := Table.get?_of_mem h.distinct (List.mem_reverse.mp hmem)
    by_cases hpeer : record.peer? = some peer
    · simp [hall id record hget hpeer]
    · simp [hpeer]

end Latest

end Transfers

/-! ## Runs -/

namespace Operation

open Transfers

variable {t : Transfers}

theorem ascending_moved {id : TransferId} {t' : Transfers} {record : Record}
    (h : Ascending t.book) (hmem : (id, record) ∈ t.book) (hmoved : Moved id t t') :
    Ascending t'.book := by
  have hget : Table.get? id t.book ≠ none := by
    rw [Table.get?_of_mem h.distinct hmem]
    exact Option.some_ne_none _
  cases hmoved with
  | more record hactive => exact h.insert hget record
  | done record path =>
      rw [book_report]
      exact h.insert hget record.finish
  | failed path =>
      rw [book_report]
      exact h.filter _

theorem ascending_perform (h : Ascending t.book) (op : Operation) :
    Ascending (op.perform t).book := by
  have heffect := effect_perform op t
  generalize op.perform t = t' at heffect ⊢
  cases heffect with
  | same => exact h
  | waste => exact h
  | add record => exact h.enter _ record
  | addCompleted record path =>
      rw [book_report]
      exact h.enter _ record
  | refuse path =>
      rw [book_report]
      exact h
  | move pool hmem hmoved => exact ascending_moved (t := { t with pool }) h hmem hmoved
  | remove id => exact h.filter _
  | abort id path =>
      rw [book_report]
      exact h.filter _
  | failActive =>
      rw [book_failActive]
      exact h.filter _

theorem ascending_run (h : Ascending t.book) (ops : List Operation) :
    Ascending (run t ops).book := by
  induction ops generalizing t with
  | nil => exact h
  | cons op ops ih => exact ih (ascending_perform h op)

theorem ascending_run_empty (listening : Bool) (ops : List Operation) :
    Ascending (run (Transfers.empty listening) ops).book :=
  ascending_run (t := Transfers.empty listening) List.Pairwise.nil ops

theorem listening_run (hl : t.listening = true) (ops : List Operation) :
    (run t ops).listening = true := by
  induction ops generalizing t with
  | nil => exact hl
  | cons op ops ih => exact ih (listening_perform hl op)

end Operation

end Transfer

end SessionEngine

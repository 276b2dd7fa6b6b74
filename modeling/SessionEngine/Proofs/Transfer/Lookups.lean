import SessionEngine.Proofs.Transfer.Ascending
import SessionEngine.Proofs.Transfer.Refusals

/-!
# Finding transfers by the id of the other side

A chunk, a notice and a question name a received file by the id that the other
side gave out. A chunk belongs to the latest transfer announced under it that
is not complete (`target?`), a notice and a question are about the latest one
whatsoever (`receivingId?`, `noticeTarget?`).

So the three agree unless a later transfer was announced under the same id
and is complete while an earlier one goes on (`lookups_run`). This takes an
announcement under an id that is still in use on the other side
(`lookups_agree_run`); a file without bytes suffices (`not_lookups_agree`).
-/

namespace SessionEngine

namespace Transfer

namespace Record

theorem peer?_eq_some_iff {r : Record} {peer : TransferId} :
    r.peer? = some peer ↔ r.direction = .receiving peer := by
  rw [peer?]
  cases r.direction with
  | sending => exact iff_of_false nofun nofun
  | receiving other => rw [Option.some.injEq, Direction.receiving.injEq]

end Record

namespace Transfers

/-- A transfer that the other side announced under `peer` after the one with
this id is complete. -/
def Overtaken (id peer : TransferId) (t : Transfers) : Prop :=
  ∃ other found, t.get? other = some found ∧ found.peer? = some peer ∧
    found.completed = true ∧ id < other

/-- What the other ways of looking for a transfer of the other side find, when
chunks under `peer` go to the one with this id. -/
structure Lookups (id peer : TransferId) (t : Transfers) : Prop where
  /-- What is found is the same transfer, or a later one that is complete. -/
  latest : ∃ latest, t.receivingId? peer = some latest ∧ id ≤ latest ∧
    (latest ≠ id → t.stage latest = .completed)
  same : t.receivingId? peer = some id ↔ ¬ t.Overtaken id peer
  sending : t.direction? peer = some .sending → t.noticeTarget? peer = some peer
  receiving : t.direction? peer ≠ some .sending → t.noticeTarget? peer = t.receivingId? peer

variable {t : Transfers} {id peer : TransferId} {record : Record}

theorem noticeTarget?_of_not_sending (h : t.direction? peer ≠ some .sending) :
    t.noticeTarget? peer = t.receivingId? peer := by
  rw [direction?] at h
  rw [noticeTarget?]
  split
  next heq => exact absurd heq h
  next => rfl

theorem receivingId?_eq_some_iff (h : Ascending t.book) :
    t.receivingId? peer = some id ↔
      (∃ record, t.get? id = some record ∧ record.peer? = some peer) ∧
        ∀ other found, t.get? other = some found → found.peer? = some peer → other ≤ id := by
  rw [receivingId?, Option.map_eq_some_iff]
  constructor
  · rintro ⟨⟨_, record⟩, hlatest, rfl⟩
    obtain ⟨hget, hpeer, hgreatest⟩ := (latest?_eq_some_iff h).mp hlatest
    refine ⟨⟨record, hget, of_decide_eq_true hpeer⟩, fun other found hother hfound => ?_⟩
    exact hgreatest other found hother (decide_eq_true hfound)
  · rintro ⟨⟨record, hget, hpeer⟩, hgreatest⟩
    refine ⟨(id, record), (latest?_eq_some_iff h).mpr ⟨hget, decide_eq_true hpeer, ?_⟩, rfl⟩
    intro other found hother hfound
    exact hgreatest other found hother (of_decide_eq_true hfound)

/-- Whenever there is a transfer of the other side, one is found. -/
theorem exists_receivingId? (hget : t.get? id = some record) (hpeer : record.peer? = some peer) :
    ∃ latest, t.receivingId? peer = some latest := by
  rw [← Option.isSome_iff_exists, receivingId?, Option.isSome_map, latest?, List.find?_isSome]
  exact ⟨(id, record), List.mem_reverse.mpr (Table.mem_of_get? hget), decide_eq_true hpeer⟩

theorem receivingId?_eq_some_iff_of_awaits (h : Ascending t.book) (hawaits : t.Awaits id peer) :
    t.receivingId? peer = some id ↔ ¬ t.Overtaken id peer := by
  obtain ⟨⟨record, hget, hpeer, -⟩, hlatest⟩ := hawaits
  rw [receivingId?_eq_some_iff h]
  constructor
  · rintro ⟨-, hgreatest⟩ ⟨other, found, hother, hfound, -, hlt⟩
    exact UInt32.not_le.mpr hlt (hgreatest other found hother hfound)
  · intro hnot
    refine ⟨⟨record, hget, hpeer⟩, fun other found hother hfound => ?_⟩
    cases hcompleted : found.completed with
    | false => exact hlatest other found hother hfound hcompleted
    | true =>
        refine UInt32.not_lt.mp fun hlt => hnot ?_
        exact ⟨other, found, hother, hfound, hcompleted, hlt⟩

theorem lookups_of_target? (h : Ascending t.book) (htarget : t.target? peer = some (id, record)) :
    t.Lookups id peer := by
  obtain ⟨hget, hawaits⟩ := (target?_eq_some_iff h).mp htarget
  have hpeer := (mem_of_target? htarget).2.1
  obtain ⟨latest, hlatest⟩ := exists_receivingId? hget hpeer
  obtain ⟨⟨found, hfound, hsame⟩, hgreatest⟩ := (receivingId?_eq_some_iff h).mp hlatest
  have hle : id ≤ latest := hgreatest id record hget hpeer
  refine ⟨⟨latest, hlatest, hle, fun hne => ?_⟩, receivingId?_eq_some_iff_of_awaits h hawaits,
    noticeTarget?_of_sending, noticeTarget?_of_not_sending⟩
  rw [stage_of_get? hfound, if_pos]
  -- were it active, the chunks would go to it
  cases hcompleted : found.completed with
  | true => rfl
  | false =>
      have hge := hawaits.2 latest found hfound hsame hcompleted
      exact absurd (UInt32.le_antisymm hge hle) hne

end Transfers

/-! ## All runs -/

namespace Operation

open Transfers

/-- In all states that transfers can come to, what is found for a chunk, a
notice and a question is the same, unless a later transfer is complete. -/
theorem lookups_run (listening : Bool) (ops : List Operation) {peer id : TransferId}
    {record : Record}
    (htarget : (run (Transfers.empty listening) ops).target? peer = some (id, record)) :
    (run (Transfers.empty listening) ops).Lookups id peer :=
  lookups_of_target? (ascending_run_empty listening ops) htarget

/-- Two files, announced under the same id. The second has no bytes. -/
def announcedTwice : List Operation :=
  [.receive Disk.empty (.ofString "in") ⟨"a", 8, 2, 4, 7⟩,
    .receive Disk.empty (.ofString "in") ⟨"b", 0, 0, 1, 7⟩]

/-- Chunks go to the first file, and a notice of failure ends the second. -/
theorem lookups_run_announcedTwice :
    (run (Transfers.empty true) announcedTwice).Overtaken 1 7 ∧
      (run (Transfers.empty true) announcedTwice).noticeTarget? 7 = some 2 := by
  have htarget : (run (Transfers.empty true) announcedTwice).target? 7 =
      some (1, .ofRequest (.ofString "in/a") 0 ⟨"a", 8, 2, 4, 7⟩) := by decide +kernel
  have hlookups := lookups_run true announcedTwice htarget
  have hlatest : (run (Transfers.empty true) announcedTwice).receivingId? 7 = some 2 := by
    decide +kernel
  refine ⟨by_contra fun hnot => ?_, ?_⟩
  · rw [hlookups.same.mpr hnot] at hlatest
    cases hlatest
  · rw [hlookups.receiving (by decide +kernel), hlatest]

/-- A chunk, a notice and a question under the same id are not always about
the same transfer. -/
theorem not_lookups_agree :
    ¬ ∀ (ops : List Operation) (peer id : TransferId) (record : Record),
      (run (Transfers.empty true) ops).target? peer = some (id, record) →
        (run (Transfers.empty true) ops).receivingId? peer = some id ∧
          ((run (Transfers.empty true) ops).direction? peer ≠ some .sending →
            (run (Transfers.empty true) ops).noticeTarget? peer = some id) := by
  intro hagree
  have hsame := (hagree announcedTwice 7 1 (.ofRequest (.ofString "in/a") 0 ⟨"a", 8, 2, 4, 7⟩)
    (by decide +kernel)).1
  revert hsame
  decide +kernel

/-! ## Ids that are used once -/

/-- The other side announces a file under this id while one that it announced
before is still under way. -/
def reannounces (peer : TransferId) (op : Operation) (t : Transfers) : Bool :=
  op.direction? = some (.receiving peer) && (op.started? t).isSome && (t.target? peer).isSome

/-- No transfer that is under way has a later one beside it that was announced
under the same id. -/
def Newest (peer : TransferId) (t : Transfers) : Prop :=
  ∀ id, t.stage id = .active → t.direction? id = some (.receiving peer) →
    ∀ other, t.direction? other = some (.receiving peer) → other ≤ id

section Newest

variable {n : Nat} {t : Transfers} {peer : TransferId}

theorem target?_isSome_of_active (hbook : Ascending t.book) {id : TransferId}
    (hactive : t.stage id = .active) (hway : t.direction? id = some (.receiving peer)) :
    (t.target? peer).isSome = true := by
  obtain ⟨record, hget, hdirection⟩ := Option.map_eq_some_iff.mp hway
  cases htarget : t.target? peer with
  | some target => rfl
  | none =>
      have hcompleted := (target?_eq_none_iff hbook).mp htarget id record hget
        (Record.peer?_eq_some_iff.mpr hdirection)
      rw [stage_of_get? hget, if_pos hcompleted] at hactive
      cases hactive

theorem newest_perform (h : Numbered n t) (hbook : Ascending t.book) (hnewest : Newest peer t)
    (op : Operation) (hn : n + (op.issues t).toNat < UInt32.size)
    (hop : op.reannounces peer t = false) : Newest peer (op.perform t) := by
  have ht : t.Sound := h.sound (Nat.lt_of_le_of_lt (Nat.le_add_right n _) hn)
  intro id hactive hway other hother
  obtain ⟨_, -, hturn⟩ := turn_perform ht id op
  have hbegun := hturn.active_or_started hactive
  rcases direction?_perform h.listening h.distinct op hother with hbefore | ⟨rfl, hstarted, hnew⟩
  · rcases hbegun with hold | hstarts
    · -- neither of the two is new
      rcases direction?_perform h.listening h.distinct op hway with hwas | ⟨rfl, -, -⟩
      · exact hnewest id hold hwas other hbefore
      · rw [stage_of_get?_none ht.fresh] at hold
        cases hold
    · -- a new transfer has the greatest id
      have hgives := (given_of_started ht (of_decide_eq_true hstarts)).2
      obtain ⟨hissues, hid⟩ := Bool.and_eq_true_iff.mp hgives
      have hnext := h.nextId_of_issues hissues hn
      rw [of_decide_eq_true hid, UInt32.le_iff_toNat_le, hnext]
      exact Nat.le_succ_of_le (h.given other (stage_ne_absent hbefore)).2
  · rcases direction?_perform h.listening h.distinct op hway with hwas | ⟨rfl, -, -⟩
    · -- an earlier transfer would be under way
      have hold : t.stage id = .active := by
        refine hbegun.resolve_right fun hstarts => ?_
        exact stage_ne_absent hwas (given_of_started ht (of_decide_eq_true hstarts)).1
      rw [reannounces, decide_eq_true hnew, hstarted,
        target?_isSome_of_active hbook hold hwas] at hop
      cases hop
    · exact UInt32.le_refl _

theorem newest_run (h : Numbered n t) (hbook : Ascending t.book) (hnewest : Newest peer t)
    (ops : List Operation) (hn : n + issued t ops < UInt32.size)
    (hops : ever (reannounces peer) t ops = false) : Newest peer (run t ops) := by
  induction ops generalizing n t with
  | nil => exact hnewest
  | cons op ops ih =>
      rw [issued, ← Nat.add_assoc] at hn
      obtain ⟨hop, hrest⟩ := Bool.or_eq_false_iff.mp hops
      have hfirst : n + (op.issues t).toNat < UInt32.size :=
        Nat.lt_of_le_of_lt (Nat.le_add_right _ _) hn
      exact ih (h.perform op hfirst) (ascending_perform hbook op)
        (newest_perform h hbook hnewest op hfirst hop) hn hrest

end Newest

/-- If the other side does not announce a file under an id that is in use,
chunks, notices and questions under this id are about the same transfer. -/
theorem lookups_agree_run (ops : List Operation) {peer id : TransferId} {record : Record}
    (hids : issued (Transfers.empty true) ops < UInt32.size)
    (hops : ever (reannounces peer) (Transfers.empty true) ops = false)
    (htarget : (run (Transfers.empty true) ops).target? peer = some (id, record)) :
    (run (Transfers.empty true) ops).receivingId? peer = some id ∧
      ((run (Transfers.empty true) ops).direction? peer ≠ some .sending →
        (run (Transfers.empty true) ops).noticeTarget? peer = some id) := by
  have hbook := ascending_run_empty true ops
  have hlookups := lookups_of_target? hbook htarget
  obtain ⟨hget, -⟩ := (target?_eq_some_iff hbook).mp htarget
  obtain ⟨-, hpeer, hactive⟩ := mem_of_target? htarget
  have hnewest : Newest peer (run (Transfers.empty true) ops) := by
    refine newest_run numbered_empty List.Pairwise.nil (fun id hway => ?_) ops (by omega) hops
    cases hway
  have hsame : (run (Transfers.empty true) ops).receivingId? peer = some id := by
    refine hlookups.same.mpr ?_
    rintro ⟨other, found, hother, hfound, -, hlt⟩
    refine UInt32.not_le.mpr hlt (hnewest id ?_ ?_ other ?_)
    · rw [stage_of_get? hget, hactive]
      rfl
    · rw [direction?_of_get? hget, Record.peer?_eq_some_iff.mp hpeer]
    · rw [direction?_of_get? hother, Record.peer?_eq_some_iff.mp hfound]
  exact ⟨hsame, fun hway => (hlookups.receiving hway).trans hsame⟩

end Operation

end Transfer

end SessionEngine

import SessionEngine.Proofs.Transfer.Moving
import SessionEngine.Proofs.Transfer.Start

/-!
# Runs of operations on transfers

Everything that can be done to the transfers of a connection, as data, so that
a run is a list. An operation on files comes with the disk that it finds, and with
how the system reads or writes then: what happens to the disk between two
operations is left open, and any access can fail.

`Turn` says once what one operation can mean for one id, and `turn_perform`
proves it for each operation; later proofs look at the turns alone. What an
operation can do to the transfers as a whole is fewer things (`Effect`), and
what every operation keeps, whatever the id, is read off them at the end.
-/

namespace SessionEngine

namespace Transfer

inductive Operation where
  | send (disk : Disk) (path : Path) (chunkSize : UInt32)
  | receive (disk : Disk) (dir : Path) (request : Request)
  | takeChunk (writer : FileWriter) (disk : Disk) (chunk : Chunk) (payload : Bytes)
  | sendNext (connected : Bool) (reader : FileReader) (id : TransferId)
  | cancel (id : TransferId)
  | abort (id : TransferId)
  | failActive
  | reportFailedSend (path : Path)

namespace Operation

def perform (t : Transfers) : Operation → Transfers
  | send disk path chunkSize => (t.send disk path chunkSize).1
  | receive disk dir request => (t.receive disk dir request).1
  | takeChunk writer disk chunk payload => (t.takeChunkBy writer disk chunk payload).1
  | sendNext connected reader id => (t.sendNextFrom connected reader id).1
  | cancel id => (t.cancel id).2
  | abort id => (t.abort id).2
  | failActive => t.failActive.2
  | reportFailedSend path => (t.reportFailedSend path).2

def started? (t : Transfers) : Operation → Option TransferId
  | send disk path chunkSize =>
      match (t.send disk path chunkSize).2 with
      | .ok (id, _) => some id
      | .error _ => none
  | receive disk dir request =>
      match (t.receive disk dir request).2.2 with
      | .ok id => some id
      | .error _ => none
  | _ => none

def run (t : Transfers) (ops : List Operation) : Transfers := ops.foldl perform t

@[simp] theorem run_nil (t : Transfers) : run t [] = t := rfl

@[simp] theorem run_cons (t : Transfers) (op : Operation) (ops : List Operation) :
    run t (op :: ops) = run (op.perform t) ops := rfl

/-- Something was the case when an operation of the run was performed. -/
def ever (p : Operation → Transfers → Bool) (t : Transfers) : List Operation → Bool
  | [] => false
  | op :: ops => p op t || ever p (op.perform t) ops

/-- Whether an operation gives out an id. -/
def issues (t : Transfers) (op : Operation) : Bool := (op.perform t).nextId ≠ t.nextId

def issued (t : Transfers) : List Operation → Nat
  | [] => 0
  | op :: ops => (op.issues t).toNat + issued (op.perform t) ops

end Operation

/-! ## One id -/

/-- Where a transfer stands. -/
inductive Stage where
  /-- It is not in the book, or not any more. -/
  | absent
  | active
  | completed
deriving DecidableEq

namespace Transfers

/-- Where the transfer with this id stands. -/
def stage (id : TransferId) (t : Transfers) : Stage :=
  match t.get? id with
  | none => .absent
  | some record => if record.completed then .completed else .active

end Transfers

namespace Operation

/-- The operation gives out this id. -/
def gives (id : TransferId) (op : Operation) (t : Transfers) : Bool :=
  op.issues t && id = t.nextId

/-- The operation starts a transfer under this id. -/
def starts (id : TransferId) (op : Operation) (t : Transfers) : Bool :=
  op.started? t = some id

/-- The operation takes out a transfer that is active, without a report. -/
def cancels (id : TransferId) (op : Operation) (t : Transfers) : Bool :=
  match op with
  | .cancel target => target = id && t.stage id = .active
  | _ => false

/-- The operation gives up a transfer that is completed. -/
def abortsCompleted (id : TransferId) (op : Operation) (t : Transfers) : Bool :=
  match op with
  | .abort target => target = id && t.stage id = .completed
  | _ => false

end Operation

/-- What one operation can mean for one id: where the transfer stands before
and after, how many reports there are about it, and whether the id is given
out, started, cancelled while active, and aborted after its completion. -/
inductive Turn : (before after : Stage) → (reports : Nat) →
    (given started cancelled aborted : Bool) → Prop where
  | rest (stage : Stage) : Turn stage stage 0 false false false false
  /-- The id is given out, but there was no room for the announcement. -/
  | waste : Turn .absent .absent 0 true false false false
  | refuse : Turn .absent .absent 1 true false false false
  | start : Turn .absent .active 0 true true false false
  | startCompleted : Turn .absent .completed 1 true true false false
  | finish : Turn .active .completed 1 false false false false
  | fail : Turn .active .absent 1 false false false false
  | cancel : Turn .active .absent 0 false false true false
  | forget : Turn .completed .absent 0 false false false false
  | abortCompleted : Turn .completed .absent 1 false false false true

/-- A transfer that is in the book was there before, or its id is given out. -/
theorem Turn.present_or_given {before after : Stage} {reports : Nat}
    {given started cancelled aborted : Bool}
    (h : Turn before after reports given started cancelled aborted) (hafter : after ≠ .absent) :
    before ≠ .absent ∨ given = true := by
  cases h with
  | rest => exact Or.inl hafter
  | start | startCompleted => exact Or.inr rfl
  | finish => exact Or.inl Stage.noConfusion
  | waste | refuse | fail | cancel | forget | abortCompleted => exact absurd rfl hafter

theorem Turn.active_or_started {before after : Stage} {reports : Nat}
    {given started cancelled aborted : Bool}
    (h : Turn before after reports given started cancelled aborted) (hafter : after = .active) :
    before = .active ∨ started = true := by
  cases h with
  | rest => exact .inl hafter
  | start => exact .inr rfl
  | waste | refuse | startCompleted | finish | fail | cancel | forget | abortCompleted =>
      cases hafter

namespace Transfers

section Stage

variable {id : TransferId} {t t' : Transfers}

theorem stage_congr (h : t'.get? id = t.get? id) : t'.stage id = t.stage id := by
  rw [stage, h, stage]

theorem stage_of_get? {record : Record} (h : t.get? id = some record) :
    t.stage id = if record.completed then .completed else .active := by
  rw [stage, h]

theorem stage_of_get?_none (h : t.get? id = none) : t.stage id = .absent := by
  rw [stage, h]

end Stage

end Transfers

namespace Operation

/-- The operation means one of the turns for this id. -/
def TurnsFor (id : TransferId) (op : Operation) (t : Transfers) : Prop :=
  ∃ reports, (op.perform t).reported id = t.reported id + reports ∧
    Turn (t.stage id) ((op.perform t).stage id) reports (op.gives id t) (op.starts id t)
      (op.cancels id t) (op.abortsCompleted id t)

section Turns

variable {id : TransferId} {op : Operation} {t : Transfers}

theorem gives_eq_false (h : (op.perform t).nextId = t.nextId) : op.gives id t = false := by
  simp [gives, issues, h]

theorem gives_eq_decide (h : (op.perform t).nextId = t.nextId + 1) :
    op.gives id t = decide (id = t.nextId) := by
  simp [gives, issues, h]

/-- Nothing happens to a transfer whose entry and reports stay. -/
theorem turnsFor_rest (hget : (op.perform t).get? id = t.get? id)
    (hreported : (op.perform t).reported id = t.reported id) (hgives : op.gives id t = false)
    (hstarts : op.starts id t = false) (hcancels : op.cancels id t = false)
    (haborts : op.abortsCompleted id t = false) : op.TurnsFor id t := by
  refine ⟨0, hreported, ?_⟩
  rw [Transfers.stage_congr hget, hgives, hstarts, hcancels, haborts]
  exact .rest _

/-! ### Starting -/

theorem starts_eq (h : op.started? t = some t.nextId) :
    op.starts id t = decide (id = t.nextId) := by
  rw [starts, h]
  simp [eq_comm]

theorem starts_eq_false (h : op.started? t = none) : op.starts id t = false := by
  rw [starts, h]
  rfl

/-- An operation that gives out an id means nothing for the others. -/
theorem turnsFor_of_issue (ht : t.Sound) (hnext : (op.perform t).nextId = t.nextId + 1)
    (hcancels : op.cancels id t = false) (haborts : op.abortsCompleted id t = false)
    (hother : id ≠ t.nextId → (op.perform t).get? id = t.get? id ∧
      (op.perform t).reported id = t.reported id ∧ op.starts id t = false)
    (hself : ∃ reports, (op.perform t).reported t.nextId = t.reported t.nextId + reports ∧
      Turn .absent ((op.perform t).stage t.nextId) reports true (op.starts t.nextId t) false
        false) : op.TurnsFor id t := by
  have hgives : op.gives id t = decide (id = t.nextId) := gives_eq_decide hnext
  by_cases hid : id = t.nextId
  · subst hid
    rw [decide_eq_true rfl] at hgives
    rw [TurnsFor, hgives, hcancels, haborts, Transfers.stage_of_get?_none ht.fresh]
    exact hself
  · rw [decide_eq_false hid] at hgives
    obtain ⟨hget, hreported, hstarts⟩ := hother hid
    exact turnsFor_rest hget hreported hgives hstarts hcancels haborts

theorem turnsFor_send (ht : t.Sound) (disk : Disk) (path : Path) (requested : UInt32) :
    (send disk path requested).TurnsFor id t := by
  rcases t.send_cases disk path requested with ⟨e, heq⟩ | ⟨e, heq⟩ |
    ⟨number, size, chunkSize, chunksTotal, frame, heq⟩
  · have hperform : (send disk path requested).perform t = t := by rw [perform, heq]
    have hstarts : (send disk path requested).started? t = none := by rw [started?, heq]
    exact turnsFor_rest (by rw [hperform]) (by rw [hperform])
      (gives_eq_false (by rw [hperform])) (starts_eq_false hstarts) rfl rfl
  · have hperform : (send disk path requested).perform t = { t with nextId := t.nextId + 1 } := by
      rw [perform, heq]
    have hstarts : (send disk path requested).started? t = none := by rw [started?, heq]
    refine turnsFor_of_issue ht (by rw [hperform]) rfl rfl ?_ ?_
    · intro _
      rw [hperform]
      exact ⟨rfl, rfl, starts_eq_false hstarts⟩
    · rw [hperform, starts_eq_false hstarts]
      refine ⟨0, rfl, ?_⟩
      have habsent : Transfers.stage t.nextId { t with nextId := t.nextId + 1 } = .absent :=
        Transfers.stage_of_get?_none ht.fresh
      rw [habsent]
      exact .waste
  · have hperform : (send disk path requested).perform t =
        (t.add (.ofSource path number size chunkSize chunksTotal)).2 := by rw [perform, heq]
    have hstarts : (send disk path requested).started? t = some t.nextId := by rw [started?, heq]
    refine turnsFor_of_issue ht (by rw [hperform, Transfers.nextId_add]) rfl rfl ?_ ?_
    · intro hid
      rw [hperform, starts_eq hstarts]
      exact ⟨Transfers.get?_add_of_ne hid _, rfl, decide_eq_false hid⟩
    · rw [hperform, starts_eq hstarts, decide_eq_true rfl]
      refine ⟨0, rfl, ?_⟩
      rw [Transfers.stage_of_get? (Transfers.get?_add_self _ t)]
      exact .start

theorem turnsFor_receive (ht : t.Sound) (disk : Disk) (dir : Path) (request : Request) :
    (receive disk dir request).TurnsFor id t := by
  rcases t.receive_cases disk dir request with ⟨disk', e, heq⟩ |
    ⟨disk', name, number, -, -, heq⟩
  · have hperform : (receive disk dir request).perform t = t := by rw [perform, heq]
    have hstarts : (receive disk dir request).started? t = none := by rw [started?, heq]
    exact turnsFor_rest (by rw [hperform]) (by rw [hperform])
      (gives_eq_false (by rw [hperform])) (starts_eq_false hstarts) rfl rfl
  · have hstarts : (receive disk dir request).started? t = some t.nextId := by
      rw [started?, heq]
    have hlistening : (t.add (.ofRequest (dir.join name) number request)).2.listening = true :=
      ht.listening
    by_cases hempty : request.fileSize = 0
    · have hperform : (receive disk dir request).perform t =
          (t.add (.ofRequest (dir.join name) number request)).2.report t.nextId true
            (dir.join name) := by
        rw [perform, heq, if_pos (decide_eq_true hempty)]
      refine turnsFor_of_issue ht (by rw [hperform]; simp) rfl rfl ?_ ?_
      · intro hid
        rw [hperform, starts_eq hstarts, Transfers.get?_report,
          Transfers.reported_report_of_ne hlistening hid]
        exact ⟨Transfers.get?_add_of_ne hid _, rfl, decide_eq_false hid⟩
      · rw [hperform, starts_eq hstarts, decide_eq_true rfl,
          Transfers.reported_report_self hlistening]
        refine ⟨1, rfl, ?_⟩
        rw [Transfers.stage_congr (Transfers.get?_report ..),
          Transfers.stage_of_get? (Transfers.get?_add_self _ t), Record.ofRequest,
          decide_eq_true hempty]
        exact .startCompleted
    · have hperform : (receive disk dir request).perform t =
          (t.add (.ofRequest (dir.join name) number request)).2 := by
        rw [perform, heq, if_neg (by simpa using hempty)]
      refine turnsFor_of_issue ht (by rw [hperform]; simp) rfl rfl ?_ ?_
      · intro hid
        rw [hperform, starts_eq hstarts]
        exact ⟨Transfers.get?_add_of_ne hid _, rfl, decide_eq_false hid⟩
      · rw [hperform, starts_eq hstarts, decide_eq_true rfl]
        refine ⟨0, rfl, ?_⟩
        rw [Transfers.stage_of_get? (Transfers.get?_add_self _ t), Record.ofRequest,
          decide_eq_false hempty]
        exact .start

theorem turnsFor_reportFailedSend (ht : t.Sound) (path : Path) :
    (reportFailedSend path).TurnsFor id t := by
  have hperform : (reportFailedSend path).perform t =
      Transfers.report t.nextId false path { t with nextId := t.nextId + 1 } := rfl
  have hlistening : ({ t with nextId := t.nextId + 1 } : Transfers).listening = true :=
    ht.listening
  refine turnsFor_of_issue ht (by rw [hperform, Transfers.nextId_report]) rfl rfl ?_ ?_
  · intro hid
    rw [hperform, Transfers.get?_report, Transfers.reported_report_of_ne hlistening hid]
    exact ⟨rfl, rfl, rfl⟩
  · rw [hperform, Transfers.reported_report_self hlistening,
      Transfers.stage_congr (Transfers.get?_report ..)]
    refine ⟨1, rfl, ?_⟩
    have habsent : Transfers.stage t.nextId { t with nextId := t.nextId + 1 } = .absent :=
      Transfers.stage_of_get?_none ht.fresh
    rw [habsent]
    exact .refuse

/-! ### Moving -/

/-- A chunk that moves an active transfer means nothing for the others. -/
theorem turnsFor_of_moved {moving : TransferId} (pool : BlockPool) (ht : t.Sound)
    (hactive : t.stage moving = .active)
    (hmoved : Transfers.Moved moving { t with pool } (op.perform t))
    (hgives : op.gives id t = false) (hstarts : op.starts id t = false)
    (hcancels : op.cancels id t = false) (haborts : op.abortsCompleted id t = false) :
    op.TurnsFor id t := by
  generalize hperform : op.perform t = t' at hmoved
  by_cases hid : id = moving
  · subst hid
    rw [TurnsFor, hactive, hgives, hstarts, hcancels, haborts, hperform]
    cases hmoved with
    | more record hopen =>
        refine ⟨0, rfl, ?_⟩
        rw [Transfers.stage_of_get? (Transfers.get?_set_self id record _), hopen]
        exact .rest _
    | done record path =>
        rw [Transfers.reported_report_self (by exact ht.listening),
          Transfers.stage_congr (Transfers.get?_report ..),
          Transfers.stage_of_get? (Transfers.get?_set_self id record.finish _)]
        exact ⟨1, rfl, .finish⟩
    | failed path =>
        rw [Transfers.reported_report_self (by exact ht.listening),
          Transfers.stage_congr (Transfers.get?_report ..),
          Transfers.stage_of_get?_none (Transfers.get?_remove_self id _)]
        exact ⟨1, rfl, .fail⟩
  · refine turnsFor_rest ?_ ?_ hgives hstarts hcancels haborts
    · rw [hperform]
      cases hmoved with
      | more record hopen => exact Transfers.get?_set_of_ne hid record _
      | done record path =>
          rw [Transfers.get?_report]
          exact Transfers.get?_set_of_ne hid record.finish _
      | failed path =>
          rw [Transfers.get?_report]
          exact Transfers.get?_remove_of_ne hid _
    · rw [hperform]
      cases hmoved with
      | more record hopen => rfl
      | done record path =>
          rw [Transfers.reported_report_of_ne (by exact ht.listening) hid]
          rfl
      | failed path =>
          rw [Transfers.reported_report_of_ne (by exact ht.listening) hid]
          rfl

theorem turnsFor_takeChunk (ht : t.Sound) (writer : FileWriter) (disk : Disk) (chunk : Chunk)
    (payload : Bytes) : (takeChunk writer disk chunk payload).TurnsFor id t := by
  cases htarget : t.target? chunk.id with
  | none =>
      have hperform : (takeChunk writer disk chunk payload).perform t = t := by
        rw [perform, Transfers.takeChunkBy_of_no_target htarget]
      exact turnsFor_rest (by rw [hperform]) (by rw [hperform])
        (gives_eq_false (by rw [hperform])) rfl rfl rfl
  | some target =>
      obtain ⟨moving, record⟩ := target
      obtain ⟨hmem, -, hopen⟩ := Transfers.mem_of_target? htarget
      have hmoved := Transfers.takeChunkBy_moved htarget writer disk payload
      refine turnsFor_of_moved t.pool ht ?_ hmoved (gives_eq_false hmoved.nextId_eq) rfl rfl rfl
      rw [Transfers.stage_of_get? (Table.get?_of_mem ht.distinct hmem), hopen]
      rfl

theorem turnsFor_sendNext (ht : t.Sound) (connected : Bool) (reader : FileReader)
    (target : TransferId) : (sendNext connected reader target).TurnsFor id t := by
  rcases t.sendNextFrom_cases connected reader target with hperform |
    ⟨record, pool, hget, -, hopen, hmoved⟩
  · have hperform : (sendNext connected reader target).perform t = t := hperform
    exact turnsFor_rest (by rw [hperform]) (by rw [hperform])
      (gives_eq_false (by rw [hperform])) rfl rfl rfl
  · refine turnsFor_of_moved pool ht ?_ hmoved (gives_eq_false hmoved.nextId_eq) rfl rfl rfl
    rw [Transfers.stage_of_get? hget, hopen]
    rfl

/-! ### Ending -/

theorem turnsFor_cancel (target : TransferId) : (cancel target).TurnsFor id t := by
  have hperform : (cancel target).perform t = t.remove target := rfl
  have hgives : (cancel target).gives id t = false := gives_eq_false rfl
  by_cases hid : id = target
  · subst hid
    have hcancels : (cancel id).cancels id t = decide (t.stage id = .active) := by simp [cancels]
    rw [TurnsFor, hgives, hcancels, hperform,
      Transfers.stage_of_get?_none (Transfers.get?_remove_self id t)]
    refine ⟨0, rfl, ?_⟩
    cases t.stage id with
    | absent => exact .rest _
    | active => exact .cancel
    | completed => exact .forget
  · have hcancels : (cancel target).cancels id t = false := by simp [cancels, Ne.symm hid]
    exact turnsFor_rest (Transfers.get?_remove_of_ne hid t) rfl hgives rfl hcancels rfl

theorem turnsFor_abort (ht : t.Sound) (target : TransferId) : (abort target).TurnsFor id t := by
  cases hget : t.get? target with
  | none =>
      have hperform : (abort target).perform t = t := by rw [perform, Transfers.abort, hget]
      have haborts : (abort target).abortsCompleted id t = false := by
        by_cases hid : target = id
        · subst hid
          simp [abortsCompleted, Transfers.stage_of_get?_none hget]
        · simp [abortsCompleted, hid]
      exact turnsFor_rest (by rw [hperform]) (by rw [hperform])
        (gives_eq_false (by rw [hperform])) rfl rfl haborts
  | some record =>
      have hperform : (abort target).perform t =
          (t.remove target).report target false record.path := by
        rw [perform, Transfers.abort, hget]
      have hlistening : (t.remove target).listening = true := ht.listening
      have hgives : (abort target).gives id t = false :=
        gives_eq_false (by rw [hperform, Transfers.nextId_report]; rfl)
      by_cases hid : id = target
      · subst hid
        have haborts : (abort id).abortsCompleted id t = decide (t.stage id = .completed) := by
          simp [abortsCompleted]
        rw [TurnsFor, hgives, haborts, hperform, Transfers.reported_report_self hlistening,
          Transfers.stage_congr (Transfers.get?_report ..),
          Transfers.stage_of_get?_none (Transfers.get?_remove_self id t),
          Transfers.stage_of_get? hget]
        refine ⟨1, rfl, ?_⟩
        cases record.completed with
        | false => exact .fail
        | true => exact .abortCompleted
      · have haborts : (abort target).abortsCompleted id t = false := by
          simp [abortsCompleted, Ne.symm hid]
        refine turnsFor_rest ?_ ?_ hgives rfl rfl haborts
        · rw [hperform, Transfers.get?_report, Transfers.get?_remove_of_ne hid]
        · rw [hperform, Transfers.reported_report_of_ne hlistening hid]
          rfl

theorem turnsFor_failActive (ht : t.Sound) : failActive.TurnsFor id t := by
  have hgives : failActive.gives id t = false :=
    gives_eq_false (by rw [perform, Transfers.failActive_eq ht.listening])
  have hstarts : failActive.starts id t = false := rfl
  have hcancels : failActive.cancels id t = false := rfl
  have haborts : failActive.abortsCompleted id t = false := rfl
  rw [TurnsFor, hgives, hstarts, hcancels, haborts]
  refine ⟨_, Transfers.reported_failActive ht.listening ht.distinct id, ?_⟩
  rw [perform, Transfers.stage, Transfers.stage,
    Transfers.get?_failActive ht.listening ht.distinct]
  cases t.get? id with
  | none => exact .rest _
  | some record =>
      cases hcompleted : record.completed with
      | false => simpa [Option.filter, hcompleted] using Turn.fail
      | true => simpa [Option.filter, hcompleted] using Turn.rest .completed

/-- Every operation means one of the turns for every id. -/
theorem turn_perform (ht : t.Sound) (id : TransferId) (op : Operation) : op.TurnsFor id t := by
  cases op with
  | send disk path requested => exact turnsFor_send ht disk path requested
  | receive disk dir request => exact turnsFor_receive ht disk dir request
  | takeChunk writer disk chunk payload => exact turnsFor_takeChunk ht writer disk chunk payload
  | sendNext connected reader target => exact turnsFor_sendNext ht connected reader target
  | cancel target => exact turnsFor_cancel target
  | abort target => exact turnsFor_abort ht target
  | failActive => exact turnsFor_failActive ht
  | reportFailedSend path => exact turnsFor_reportFailedSend ht path

end Turns

/-! ## What every operation keeps -/

section Kept

variable {t : Transfers}

/-- What an operation can do to the transfers, whatever it is asked for. -/
inductive Effect (t : Transfers) : Transfers → Prop where
  | same : Effect t t
  | waste : Effect t { t with nextId := t.nextId + 1 }
  | add (record : Record) : Effect t (t.add record).2
  | addCompleted (record : Record) (path : Path) :
      Effect t ((t.add record).2.report t.nextId true path)
  | refuse (path : Path) :
      Effect t (Transfers.report t.nextId false path { t with nextId := t.nextId + 1 })
  | move {t' : Transfers} {id : TransferId} {record : Record} (pool : BlockPool)
      (hmem : (id, record) ∈ t.book) (hmoved : Transfers.Moved id { t with pool } t') : Effect t t'
  | remove (id : TransferId) : Effect t (t.remove id)
  | abort (id : TransferId) (path : Path) : Effect t ((t.remove id).report id false path)
  | failActive : Effect t t.failActive.2

theorem effect_perform (op : Operation) (t : Transfers) : Effect t (op.perform t) := by
  cases op with
  | send disk path requested =>
      rcases t.send_cases disk path requested with ⟨e, heq⟩ | ⟨e, heq⟩ |
        ⟨number, size, chunkSize, chunksTotal, frame, heq⟩ <;> rw [perform, heq]
      · exact .same
      · exact .waste
      · exact .add _
  | receive disk dir request =>
      rcases t.receive_cases disk dir request with ⟨disk', e, heq⟩ |
        ⟨disk', name, number, -, -, heq⟩ <;> rw [perform, heq]
      · exact .same
      · dsimp only
        split
        · exact .addCompleted _ _
        · exact .add _
  | takeChunk writer disk chunk payload =>
      cases htarget : t.target? chunk.id with
      | none =>
          rw [perform, Transfers.takeChunkBy_of_no_target htarget]
          exact .same
      | some target =>
          exact .move t.pool (Transfers.mem_of_target? htarget).1
            (Transfers.takeChunkBy_moved htarget writer disk payload)
  | sendNext connected reader target =>
      rcases t.sendNextFrom_cases connected reader target with hperform |
        ⟨record, pool, hfound, -, -, hmoved⟩
      · rw [perform, hperform]
        exact .same
      · exact .move pool (Table.mem_of_get? hfound) hmoved
  | cancel target => exact .remove target
  | abort target =>
      rw [perform, Transfers.abort]
      split
      · exact .abort target _
      · exact .same
  | failActive => exact .failActive
  | reportFailedSend path => exact .refuse path

theorem nextId_perform (op : Operation) (t : Transfers) :
    (op.perform t).nextId = if op.issues t then t.nextId + 1 else t.nextId := by
  have hnext : (op.perform t).nextId = t.nextId ∨ (op.perform t).nextId = t.nextId + 1 := by
    have heffect := effect_perform op t
    generalize op.perform t = t' at heffect ⊢
    cases heffect with
    | same => exact Or.inl rfl
    | waste => exact Or.inr rfl
    | add record => exact Or.inr rfl
    | addCompleted record path =>
        exact Or.inr ((Transfers.nextId_report ..).trans (Transfers.nextId_add record t))
    | refuse path => exact Or.inr (Transfers.nextId_report ..)
    | move pool hmem hmoved => exact Or.inl hmoved.nextId_eq
    | remove id => exact Or.inl rfl
    | abort id path => exact Or.inl (Transfers.nextId_report ..)
    | failActive =>
        refine Or.inl ?_
        rw [Transfers.failActive, Transfers.nextId_foldl_report]
  rw [issues]
  rcases hnext with heq | heq
  · simp [heq]
  · simp [heq]

theorem listening_perform (hl : t.listening = true) (op : Operation) :
    (op.perform t).listening = true := by
  have heffect := effect_perform op t
  generalize op.perform t = t' at heffect ⊢
  cases heffect with
  | same => exact hl
  | waste => exact hl
  | add record => exact hl
  | addCompleted record path => exact (Transfers.listening_report ..).trans hl
  | refuse path => exact (Transfers.listening_report ..).trans hl
  | move pool hmem hmoved => exact hmoved.listening_eq.trans hl
  | remove id => exact hl
  | abort id path => exact (Transfers.listening_report ..).trans hl
  | failActive => rw [Transfers.failActive_eq hl, hl]

theorem distinct_perform (ht : t.Sound) (op : Operation) : (op.perform t).book.Distinct := by
  have hd := ht.distinct
  have heffect := effect_perform op t
  generalize op.perform t = t' at heffect ⊢
  cases heffect with
  | same => exact hd
  | waste => exact hd
  | add record => exact Transfers.distinct_enter record hd ht.fresh
  | addCompleted record path =>
      rw [Transfers.book_report]
      exact Transfers.distinct_enter record hd ht.fresh
  | refuse path =>
      rw [Transfers.book_report]
      exact hd
  | move pool hmem hmoved => exact hmoved.distinct hd
  | remove id => exact hd.erase id
  | abort id path =>
      rw [Transfers.book_report]
      exact hd.erase id
  | failActive =>
      rw [Transfers.failActive_eq ht.listening]
      exact hd.filter _

end Kept

end Operation

end Transfer

end SessionEngine

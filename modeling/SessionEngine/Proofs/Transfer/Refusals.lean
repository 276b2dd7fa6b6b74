import Mathlib.Algebra.Group.Prod
import SessionEngine.Proofs.Connection.Exchange
import SessionEngine.Proofs.Transfer.Directions
import SessionEngine.Proofs.Transfer.Reports

/-!
# Whom a notice of failure reaches

Two endpoints exchange frames, each of which announces files, sends chunks and
cancels transfers as it likes, while the frames under way arrive in order
(`Exchange.run`). Both number their transfers from one, so the same id can
name a transfer of either.

A notice of failure is only sent in answer to an announcement or a chunk, so
its id is that of a file which the side that gets the notice has announced
(`Announced`); and the transfer under that id, if it is in the book still, is
the one that was announced (`Ledger`). It alone is ended and reported then
(`refusals_run`).

When it is not in the book any more, because it was cancelled or another
notice came first, the notice is taken for one about a file that the other
side has announced under the same id, and the latest such transfer is ended
instead (`Heeded.strayed`).
-/

namespace SessionEngine

namespace Transfer

/-! ## What was announced -/

def Message.isRequest : Message → Bool
  | request _ => true
  | response _ => false
  | chunk _ _ => false
  | complete _ => false
  | error _ => false

/-- One of the frames announces a file under this id. -/
def Announced (id : TransferId) (sent : List Bytes) : Prop :=
  ∃ frame ∈ sent, ∃ r, Message.read? frame = some (.request r) ∧ r.id = id

/-- A frame of one side is about a file that this side has announced, or it is
a notice about a file that the other side has announced. -/
def Concerns (mine theirs : List Bytes) (frame : Bytes) : Prop :=
  ∃ m, Message.read? frame = some m ∧ Announced m.id (if m.bySender then mine else theirs)

section Announcing

variable {id : TransferId} {sent new mine theirs : List Bytes} {frame : Bytes}

theorem announced_append :
    Announced id (sent ++ new) ↔ Announced id sent ∨ Announced id new := by
  constructor
  · rintro ⟨frame, hframe, hread⟩
    rcases List.mem_append.mp hframe with hbefore | hnew
    · exact Or.inl ⟨frame, hbefore, hread⟩
    · exact Or.inr ⟨frame, hnew, hread⟩
  · rintro (⟨frame, hframe, hread⟩ | ⟨frame, hframe, hread⟩)
    · exact ⟨frame, List.mem_append_left _ hframe, hread⟩
    · exact ⟨frame, List.mem_append_right _ hframe, hread⟩

theorem not_announced_nil : ¬ Announced id [] := by
  rintro ⟨frame, hframe, -⟩
  cases hframe

theorem announced_singleton {r : Request} (h : Message.read? frame = some (.request r)) :
    Announced id [frame] ↔ r.id = id := by
  constructor
  · rintro ⟨other, hother, r', hread, hid⟩
    obtain rfl := List.mem_singleton.mp hother
    cases h.symm.trans hread
    exact hid
  · intro hid
    exact ⟨frame, List.mem_singleton_self _, r, h, hid⟩

/-- Chunks and notices announce nothing. -/
theorem not_announced
    (h : ∀ frame ∈ sent, ∃ m, Message.read? frame = some m ∧ m.isRequest = false) :
    ¬ Announced id sent := by
  rintro ⟨frame, hframe, r, hread, -⟩
  obtain ⟨m, hm, hnone⟩ := h frame hframe
  cases hm.symm.trans hread
  cases hnone

theorem Concerns.mono (h : Concerns mine theirs frame) (new new' : List Bytes) :
    Concerns (mine ++ new) (theirs ++ new') frame := by
  obtain ⟨m, hread, hannounced⟩ := h
  refine ⟨m, hread, ?_⟩
  cases hsender : m.bySender with
  | true =>
      rw [hsender, if_pos rfl] at hannounced
      rw [if_pos rfl]
      exact announced_append.mpr (Or.inl hannounced)
  | false =>
      rw [hsender, if_neg Bool.false_ne_true] at hannounced
      rw [if_neg Bool.false_ne_true]
      exact announced_append.mpr (Or.inl hannounced)

end Announcing

/-! ## The transfers of one side -/

theorem Turn.given_of_started {before after : Stage} {reports : Nat}
    {given started cancelled aborted : Bool}
    (h : Turn before after reports given started cancelled aborted) (hstarted : started = true) :
    before = .absent ∧ given = true := by
  cases h with
  | start | startCompleted => exact ⟨rfl, rfl⟩
  | rest | waste | refuse | finish | fail | cancel | forget | abortCompleted => cases hstarted

/-- A transfer is started under an id that is given out for it. -/
theorem Operation.given_of_started {t : Transfers} (ht : t.Sound) {op : Operation}
    {id : TransferId} (h : op.started? t = some id) :
    t.stage id = .absent ∧ op.gives id t = true := by
  obtain ⟨_, -, hturn⟩ := turn_perform ht id op
  exact hturn.given_of_started (decide_eq_true h)

theorem Transfers.stage_ne_absent {t : Transfers} {id : TransferId} {direction : Direction}
    (h : t.direction? id = some direction) : t.stage id ≠ .absent := by
  obtain ⟨record, hget, -⟩ := Option.map_eq_some_iff.mp h
  rw [stage_of_get? hget]
  split <;> exact Stage.noConfusion

/-- What one side has announced are the transfers that go to the other side,
after `n` ids were given out. -/
structure Ledger (n : Nat) (t : Transfers) (sent : List Bytes) : Prop where
  numbered : Numbered n t
  given : ∀ id, Announced id sent → givenOf n id = true
  ways : ∀ id direction, t.direction? id = some direction →
    (direction = .sending ↔ Announced id sent)

theorem ledger_empty : Ledger 0 (Transfers.empty true) [] where
  numbered := numbered_empty
  given _ hid := absurd hid not_announced_nil
  ways id direction h := by cases h

section Ledgers

variable {n : Nat} {t : Transfers} {sent new : List Bytes}

theorem Ledger.perform (h : Ledger n t sent) (op : Operation)
    (hn : n + (op.issues t).toNat < UInt32.size)
    (hnew : ∀ id, Announced id new ↔
      op.started? t = some id ∧ op.direction? = some .sending) :
    Ledger (n + (op.issues t).toNat) (op.perform t) (sent ++ new) := by
  have ht : t.Sound := h.numbered.sound (Nat.lt_of_le_of_lt (Nat.le_add_right _ _) hn)
  refine ⟨h.numbered.perform op hn, fun id hid => ?_, fun id direction hway => ?_⟩
  · rw [givenOf_add_issues h.numbered op id hn]
    rcases announced_append.mp hid with hbefore | hstarted
    · rw [h.given id hbefore, Bool.true_or]
    · rw [(Operation.given_of_started ht ((hnew id).mp hstarted).1).2, Bool.or_true]
  · rw [announced_append, hnew]
    rcases Operation.direction?_perform ht.listening ht.distinct op hway with
      hbefore | ⟨rfl, hstarted, hdirection⟩
    · rw [h.ways id direction hbefore]
      refine ⟨Or.inl, fun hor => hor.resolve_right ?_⟩
      rintro ⟨hstarted, -⟩
      exact Transfers.stage_ne_absent hbefore (Operation.given_of_started ht hstarted).1
    · rw [hdirection, Option.some.injEq]
      refine ⟨fun hsending => Or.inr ⟨hstarted, hsending⟩, ?_⟩
      rintro (hbefore | ⟨-, hsending⟩)
      · -- the id that is given out next was not given out before
        have hgives := (Operation.given_of_started ht hstarted).2
        have hissues : (op.issues t).toNat = 1 := by
          rw [(Bool.and_eq_true_iff.mp hgives).1]
          rfl
        rw [hissues] at hn
        have hnext := h.numbered.givenOf_nextId (Nat.lt_of_succ_lt hn)
        rw [h.given _ hbefore] at hnext
        cases hnext
      · exact hsending

theorem Ledger.run (h : Ledger n t sent) {ops : List Operation}
    (hn : n + Operation.issued t ops < UInt32.size) (hops : ops.length ≤ 1)
    (hnew : ∀ id, Announced id new ↔
      ∃ op ∈ ops, op.started? t = some id ∧ op.direction? = some .sending) :
    Ledger (n + Operation.issued t ops) (Operation.run t ops) (sent ++ new) := by
  cases ops with
  | nil =>
      have hsame : ∀ id, Announced id (sent ++ new) ↔ Announced id sent := by
        intro id
        rw [announced_append, hnew]
        simp
      refine ⟨h.numbered, fun id hid => h.given id ((hsame id).mp hid), ?_⟩
      intro id direction hway
      rw [hsame]
      exact h.ways id direction hway
  | cons op rest =>
      obtain rfl : rest = [] := by
        rw [List.length_cons] at hops
        exact List.length_eq_zero_iff.mp (by omega)
      refine h.perform op hn fun id => ?_
      rw [hnew]
      simp

end Ledgers

/-! ## The frames of one side -/

theorem frames_sendChunkFrom {reader : FileReader} {id : TransferId} {connected : Bool}
    {e : Endpoint} {frame : Bytes}
    (h : frame ∈ Action.frames (e.sendChunkFrom reader id connected).2.1) :
    e.transfers.direction? id = some .sending ∧
      ∃ c payload, Message.read? frame = some (.chunk c payload) ∧ c.id = id := by
  have hsent : (e.sendChunkFrom reader id connected).2.1 =
      ((e.transfers.sendNextFrom connected reader id).2.1).toList.map .send := rfl
  rw [hsent, Action.frames_map_send, Option.mem_toList] at h
  exact Transfers.chunk_of_sendNextFrom h

theorem not_announced_sendChunkFrom (reader : FileReader) (id other : TransferId)
    (connected : Bool) (e : Endpoint) :
    ¬ Announced other (Action.frames (e.sendChunkFrom reader id connected).2.1) := by
  refine not_announced fun frame hframe => ?_
  obtain ⟨-, c, payload, hread, -⟩ := frames_sendChunkFrom hframe
  exact ⟨_, hread, rfl⟩

/-- An endpoint announces the files that it enters in order to send them. -/
theorem Act.announced_perform (act : Act) (connected : Bool) (e : Endpoint) (id : TransferId) :
    Announced id (Action.frames (act.perform connected e).2) ↔
      ∃ op ∈ act.operations connected e,
        op.started? e.transfers = some id ∧ op.direction? = some .sending := by
  cases act with
  | sendFile path chunkSize =>
      rw [perform, operations, Endpoint.sendFile]
      simp only [List.mem_singleton, exists_eq_left, Operation.direction?, and_true]
      split
      next t given built hsend =>
          obtain ⟨-, r, hread, rfl⟩ := Transfers.announced_of_send hsend
          rw [Operation.started?, hsend]
          exact (announced_singleton hread).trans Option.some_inj.symm
      next t error hsend =>
          rw [Operation.started?, hsend]
          exact iff_of_false not_announced_nil (Option.some_ne_none id).symm
  | sendDue place reader =>
      rw [perform, operations, Endpoint.sendDueFrom]
      refine iff_of_false ?_ (by simp [Operation.direction?])
      split
      next => exact not_announced_nil
      next d hdue => exact not_announced_sendChunkFrom _ _ _ _ _
  | sendChunk target reader =>
      exact iff_of_false (not_announced_sendChunkFrom _ _ _ _ _)
        (by simp [operations, Operation.direction?])
  | cancel target =>
      exact iff_of_false not_announced_nil (by simp [operations, Operation.direction?])
  | changeDisk disk => exact iff_of_false not_announced_nil (by simp [operations])

/-- What an endpoint sends of its own accord is about a file that goes to the
other side, or is just announced. -/
theorem Act.message_of_perform {act : Act} {connected : Bool} {e : Endpoint} {frame : Bytes}
    (h : frame ∈ Action.frames (act.perform connected e).2) :
    ∃ m, Message.read? frame = some m ∧ m.bySender = true ∧
      (Announced m.id (Action.frames (act.perform connected e).2) ∨
        e.transfers.direction? m.id = some .sending) := by
  cases act with
  | sendFile path chunkSize =>
      rw [perform, Endpoint.sendFile] at h ⊢
      split at h
      next t id built hsend =>
          obtain rfl := List.mem_singleton.mp h
          obtain ⟨-, r, hread, rfl⟩ := Transfers.announced_of_send hsend
          exact ⟨_, hread, rfl, Or.inl ((announced_singleton hread).mpr rfl)⟩
      next => cases h
  | sendDue place reader =>
      rw [perform, Endpoint.sendDueFrom] at h
      split at h
      next => cases h
      next d hdue =>
          obtain ⟨hway, c, payload, hread, hid⟩ := frames_sendChunkFrom h
          rw [← hid] at hway
          exact ⟨_, hread, rfl, Or.inr hway⟩
  | sendChunk id reader =>
      obtain ⟨hway, c, payload, hread, rfl⟩ := frames_sendChunkFrom h
      exact ⟨_, hread, rfl, Or.inr hway⟩
  | cancel id => cases h
  | changeDisk disk => cases h

/-- Nothing is entered in order to be sent because of a message. -/
theorem Message.direction?_operations (m : Message) {writer : FileWriter} {e : Endpoint}
    {op : Operation} (h : op ∈ m.operations writer e) : op.direction? ≠ some .sending := by
  cases m with
  | request | chunk =>
      obtain rfl := List.mem_singleton.mp h
      simp [Operation.direction?]
  | response | complete => cases h
  | error id =>
      obtain ⟨target, -, rfl⟩ := List.mem_map.mp h
      simp [Operation.direction?]

theorem Message.of_notice? {kind : Kind} {id : TransferId} {m : Message}
    (h : Message.notice? kind id = some m) : m.id = id ∧ m.bySender = false := by
  cases kind with
  | request | chunk => cases h
  | response | complete | error =>
      cases h
      exact ⟨rfl, rfl⟩

/-- What an endpoint sends in answer to a message are notices about the same
transfer, and only the sender of a file gets an answer. -/
theorem Message.notice_of_answer {m : Message} {writer : FileWriter} {e : Endpoint}
    {frame : Bytes} (h : frame ∈ Action.frames (m.answer writer e).2) :
    m.bySender = true ∧ ∃ notice, Message.read? frame = some notice ∧ notice.id = m.id ∧
      notice.bySender = false := by
  obtain ⟨kinds, hactions, hnotices, hsender⟩ := m.notices_answer writer e
  rw [hactions, Action.frames_map_send] at h
  obtain ⟨kind, hkind, rfl⟩ := List.mem_map.mp h
  obtain ⟨notice, hnotice⟩ := hnotices kind hkind
  exact ⟨hsender (List.ne_nil_of_mem hkind), notice, Message.read?_notice hnotice,
    Message.of_notice? hnotice⟩

/-- No answer announces a file, and no frame makes an endpoint send one. -/
theorem Message.announced_packetBy {m : Message} {frame : Bytes}
    (hread : Message.read? frame = some m) (writer : FileWriter) (e : Endpoint)
    (id : TransferId) :
    Announced id (Action.frames (e.packetBy writer frame).2) ↔
      ∃ op ∈ e.packetOperations writer frame,
        op.started? e.transfers = some id ∧ op.direction? = some .sending := by
  rw [Message.packetBy_of_read? hread, Endpoint.packetOperations, hread]
  refine iff_of_false (not_announced fun answer hanswer => ?_) ?_
  · obtain ⟨-, notice, hnotice, -, hreceiver⟩ := notice_of_answer hanswer
    refine ⟨notice, hnotice, ?_⟩
    cases notice with
    | request | chunk => cases hreceiver
    | response | complete | error => rfl
  · rintro ⟨op, hop, -, hsending⟩
    exact m.direction?_operations hop hsending

end Transfer

/-! ## Giving up -/

namespace Transfer

/-- What a notice of failure about `id` does to the transfers of the side that
gets it. -/
structure Heeded (id : TransferId) (before after : Transfers) : Prop where
  /-- A transfer under this id goes to the other side. -/
  sending : ∀ record, before.get? id = some record → record.direction = .sending
  /-- It is taken out and reported. -/
  ended : before.get? id ≠ none →
    after.get? id = none ∧ after.reported id = before.reported id + 1
  /-- Then the others stay as they are. -/
  alone : before.get? id ≠ none → ∀ other, other ≠ id →
    after.get? other = before.get? other ∧ after.reported other = before.reported other
  /-- If it is gone, the latest file is given up that the other side has
  announced under the same id. -/
  strayed : before.get? id = none → ∀ other, before.receivingId? id = some other →
    after.get? other = none ∧ after.reported other = before.reported other + 1
  /-- All that is no such file stays as it is. -/
  gone : before.get? id = none → ∀ other, before.receivingId? id ≠ some other →
    after.get? other = before.get? other ∧ after.reported other = before.reported other

theorem Transfers.abort_of_get? {t : Transfers} (hl : t.listening = true) {id : TransferId}
    (h : t.get? id ≠ none) :
    (t.abort id).2.get? id = none ∧ (t.abort id).2.reported id = t.reported id + 1 ∧
      ∀ other, other ≠ id → (t.abort id).2.get? other = t.get? other ∧
        (t.abort id).2.reported other = t.reported other := by
  obtain ⟨record, hget⟩ := Option.ne_none_iff_exists'.mp h
  have hlistening : (t.remove id).listening = true := hl
  rw [abort, hget]
  refine ⟨?_, ?_, fun other hother => ⟨?_, ?_⟩⟩
  · rw [get?_report, get?_remove_self]
  · exact reported_report_self hlistening id false record.path
  · rw [get?_report, get?_remove_of_ne hother]
  · exact reported_report_of_ne hlistening hother false record.path

theorem Transfers.get?_of_receivingId? {t : Transfers} (hd : t.book.Distinct)
    {peer id : TransferId} (h : t.receivingId? peer = some id) : t.get? id ≠ none := by
  obtain ⟨⟨other, record⟩, hlatest, rfl⟩ := Option.map_eq_some_iff.mp h
  have hget : t.get? other = some record := Table.get?_of_mem hd (mem_of_latest? hlatest).1
  rw [hget]
  exact Option.some_ne_none record

theorem Endpoint.heeded_onRefusal {e : Endpoint} (hl : e.transfers.listening = true)
    (hd : e.transfers.book.Distinct) {id : TransferId}
    (hsending : ∀ direction, e.transfers.direction? id = some direction → direction = .sending) :
    Heeded id e.transfers (e.onRefusal id).transfers := by
  cases hget : e.transfers.get? id with
  | some record =>
      have hway := Transfers.direction?_of_get? hget
      have hrecord := hsending _ hway
      rw [hrecord] at hway
      have htransfers : (e.onRefusal id).transfers = (e.transfers.abort id).2 := by
        rw [onRefusal, Transfers.noticeTarget?_of_sending hway]
      have hpresent : e.transfers.get? id ≠ none := by
        rw [hget]
        exact Option.some_ne_none record
      obtain ⟨hgone, hreported, hothers⟩ := Transfers.abort_of_get? hl hpresent
      rw [htransfers]
      refine ⟨fun other hother => ?_, fun _ => ⟨hgone, hreported⟩, fun _ => hothers,
        fun hnone => absurd hnone hpresent, fun hnone => absurd hnone hpresent⟩
      cases hget.symm.trans hother
      exact hrecord
  | none =>
      have htarget := Transfers.noticeTarget?_of_get?_none hget
      refine ⟨fun record hrecord => ?_, fun hne => absurd hget hne, fun hne => absurd hget hne,
        fun _ other hother => ?_, fun _ other hother => ?_⟩
      · rw [hget] at hrecord
        cases hrecord
      · rw [onRefusal, htarget, hother]
        have hpresent := Transfers.get?_of_receivingId? hd hother
        obtain ⟨hgone, hreported, -⟩ := Transfers.abort_of_get? hl hpresent
        exact ⟨hgone, hreported⟩
      · rw [onRefusal, htarget]
        split
        next target hlatest =>
            have hpresent := Transfers.get?_of_receivingId? hd hlatest
            refine (Transfers.abort_of_get? hl hpresent).2.2 other ?_
            rintro rfl
            exact hother hlatest
        next => exact ⟨rfl, rfl⟩

end Transfer

/-! ## Runs of two endpoints -/

namespace Exchange

open Transfer

inductive Event where
  | act (act : Act)
  /-- The first frame under way arrives. -/
  | deliver (writer : FileWriter)

inductive Step where
  | near (event : Event)
  | far (event : Event)

def start (near far : Endpoint) : Exchange Endpoint Endpoint where
  near := { near with transfers := Transfers.empty true, due := [] }
  far := { far with transfers := Transfers.empty true, due := [] }
  toFar := []
  toNear := []
  nearSent := []
  farSent := []

/-- Something happens at the far side. -/
def happen (x : Exchange Endpoint Endpoint) : Event → Exchange Endpoint Endpoint
  | .act act => x.answer (act.perform true x.far).1 (Action.frames (act.perform true x.far).2)
  | .deliver writer =>
      match x.toFar with
      | [] => x
      | frame :: frames =>
          { x with toFar := frames }.answer (x.far.packetBy writer frame).1
            (Action.frames (x.far.packetBy writer frame).2)

def step (x : Exchange Endpoint Endpoint) : Step → Exchange Endpoint Endpoint
  | .near event => (x.swap.happen event).swap
  | .far event => x.happen event

def run (x : Exchange Endpoint Endpoint) (steps : List Step) : Exchange Endpoint Endpoint :=
  steps.foldl step x

/-! ### Ids that are given out -/

/-- What an event at the far side does to its transfers. -/
def operations (x : Exchange Endpoint Endpoint) : Event → List Operation
  | .act act => act.operations true x.far
  | .deliver writer => (x.toFar.head?).elim [] fun frame => x.far.packetOperations writer frame

/-- How many ids each side gives out in a step. -/
def issues (x : Exchange Endpoint Endpoint) : Step → Nat × Nat
  | .near event => (Operation.issued x.near.transfers (x.swap.operations event), 0)
  | .far event => (0, Operation.issued x.far.transfers (x.operations event))

/-- How many ids each side gives out in a run. -/
def issued (x : Exchange Endpoint Endpoint) : List Step → Nat × Nat
  | [] => 0
  | step :: steps => x.issues step + (x.step step).issued steps

/-! ### What is under way -/

/-- Both sides have announced what they send, and the frames under way are
about that. Each side has given out so many ids. -/
structure Sound (count : Nat × Nat) (x : Exchange Endpoint Endpoint) : Prop where
  near : Ledger count.1 x.near.transfers x.nearSent
  far : Ledger count.2 x.far.transfers x.farSent
  toFar : ∀ frame ∈ x.toFar, Concerns x.nearSent x.farSent frame
  toNear : ∀ frame ∈ x.toNear, Concerns x.farSent x.nearSent frame

section Soundness

variable {count : Nat × Nat} {x : Exchange Endpoint Endpoint}

theorem sound_start (near far : Endpoint) : (start near far).Sound 0 where
  near := ledger_empty
  far := ledger_empty
  toFar frame hframe := by cases hframe
  toNear frame hframe := by cases hframe

theorem Sound.swap (h : x.Sound count) : x.swap.Sound count.swap :=
  ⟨h.far, h.near, h.toNear, h.toFar⟩

/-- The far side does something to its transfers and sends frames. -/
theorem Sound.answer (h : x.Sound count) {far : Endpoint} {ops : List Operation}
    {frames : List Bytes} (hcount : count.2 + Operation.issued x.far.transfers ops < UInt32.size)
    (hops : ops.length ≤ 1) (htransfers : far.transfers = Operation.run x.far.transfers ops)
    (hannounced : ∀ id, Announced id frames ↔
      ∃ op ∈ ops, op.started? x.far.transfers = some id ∧ op.direction? = some .sending)
    (hframes : ∀ frame ∈ frames, Concerns (x.farSent ++ frames) x.nearSent frame) :
    (x.answer far frames).Sound (count + (0, Operation.issued x.far.transfers ops)) := by
  have hfar := h.far.run hcount hops hannounced
  rw [← htransfers] at hfar
  refine ⟨h.near, hfar, fun frame hframe => ?_, fun frame hframe => ?_⟩
  · have hmono := (h.toFar frame hframe).mono [] frames
    rw [List.append_nil] at hmono
    exact hmono
  · rcases List.mem_append.mp hframe with hbefore | hnew
    · have hmono := (h.toNear frame hbefore).mono frames []
      rw [List.append_nil] at hmono
      exact hmono
    · exact hframes frame hnew

theorem Sound.happen (h : x.Sound count) (event : Event)
    (hcount : count.2 + Operation.issued x.far.transfers (x.operations event) < UInt32.size) :
    (x.happen event).Sound
      (count + (0, Operation.issued x.far.transfers (x.operations event))) := by
  cases event with
  | act act =>
      refine h.answer hcount (act.length_operations_le true x.far)
        (act.transfers_perform true x.far) (act.announced_perform true x.far)
        fun frame hframe => ?_
      obtain ⟨m, hread, hsender, hm⟩ := Act.message_of_perform hframe
      refine ⟨m, hread, ?_⟩
      rw [hsender, if_pos rfl, announced_append]
      rcases hm with hnew | hsending
      · exact Or.inr hnew
      · exact Or.inl ((h.far.ways _ _ hsending).mp rfl)
  | deliver writer =>
      rw [operations] at hcount ⊢
      rw [Exchange.happen]
      cases hunderway : x.toFar with
      | nil => exact h
      | cons frame frames =>
          rw [hunderway] at hcount
          obtain ⟨m, hread, hm⟩ := h.toFar frame (by rw [hunderway]; exact List.mem_cons_self)
          have hrest : Sound count { x with toFar := frames } :=
            ⟨h.near, h.far, fun other hother => h.toFar other (by
              rw [hunderway]; exact List.mem_cons_of_mem _ hother), h.toNear⟩
          refine hrest.answer hcount (x.far.length_packetOperations_le writer frame)
            (x.far.transfers_packetBy writer frame) (Message.announced_packetBy hread writer x.far)
            fun notice hnotice => ?_
          rw [Message.packetBy_of_read? hread] at hnotice
          obtain ⟨hsender, n, hn, hid, hreceiver⟩ := Message.notice_of_answer hnotice
          rw [hsender, if_pos rfl] at hm
          refine ⟨n, hn, ?_⟩
          rw [hreceiver, if_neg Bool.false_ne_true, hid]
          exact hm

theorem Sound.step (h : x.Sound count) (step : Step)
    (hnear : (count + x.issues step).1 < UInt32.size)
    (hfar : (count + x.issues step).2 < UInt32.size) :
    (x.step step).Sound (count + x.issues step) := by
  cases step with
  | near event => exact (h.swap.happen event hnear).swap
  | far event => exact h.happen event hfar

theorem Sound.run (h : x.Sound count) {steps : List Step}
    (hnear : (count + x.issued steps).1 < UInt32.size)
    (hfar : (count + x.issued steps).2 < UInt32.size) :
    (x.run steps).Sound (count + x.issued steps) := by
  induction steps generalizing count x with
  | nil => exact h
  | cons first rest ih =>
      rw [issued, ← add_assoc] at hnear hfar ⊢
      have hone := h.step first (Nat.lt_of_le_of_lt (Nat.le_add_right _ _) hnear)
        (Nat.lt_of_le_of_lt (Nat.le_add_right _ _) hfar)
      exact ih hone hnear hfar

end Soundness

/-- If the next frame that arrives at the far side is a notice of failure, it
is about a file that this side has announced, and heeded. -/
def HeedsRefusals (x : Exchange Endpoint Endpoint) : Prop :=
  ∀ writer frame frames id, x.toFar = frame :: frames →
    Message.read? frame = some (.error id) →
      Announced id x.farSent ∧ Heeded id x.far.transfers (x.happen (.deliver writer)).far.transfers

theorem Sound.heedsRefusals {count : Nat × Nat} {x : Exchange Endpoint Endpoint}
    (h : x.Sound count) (hcount : count.2 < UInt32.size) : x.HeedsRefusals := by
  intro writer frame frames id hframes hread
  obtain ⟨m, hm, hannounced⟩ := h.toFar frame (by rw [hframes]; exact List.mem_cons_self)
  cases hread.symm.trans hm
  have ht : x.far.transfers.Sound := h.far.numbered.sound hcount
  have hafter : (x.happen (.deliver writer)).far = x.far.onRefusal id := by
    rw [Exchange.happen, hframes]
    exact congrArg Prod.fst (Message.packetBy_of_read? hread writer x.far)
  refine ⟨hannounced, ?_⟩
  rw [hafter]
  exact Endpoint.heeded_onRefusal ht.listening ht.distinct fun direction hway =>
    (h.far.ways id direction hway).mpr hannounced

/-- Whatever two endpoints do, and however the frames between them arrive, a
notice of failure is about a file that was announced by the side that gets it.
It ends the transfer of that file and nothing else, unless this transfer is
not in the book any more. -/
theorem refusals_run (near far : Endpoint) (steps : List Step)
    (hnear : ((start near far).issued steps).1 < UInt32.size)
    (hfar : ((start near far).issued steps).2 < UInt32.size) :
    ((start near far).run steps).HeedsRefusals ∧
      ((start near far).run steps).swap.HeedsRefusals := by
  rw [← Nat.zero_add (Prod.fst _)] at hnear
  rw [← Nat.zero_add (Prod.snd _)] at hfar
  have hsound := (sound_start near far).run hnear hfar
  exact ⟨hsound.heedsRefusals hfar, hsound.swap.heedsRefusals hnear⟩

/-- An endpoint with one file that receives into a directory. -/
def holder (receiveDir : String) : Endpoint where
  transfers := Transfers.empty true
  disk := Disk.empty.store (.ofString "f") [1]
  receiveDir := .ofString receiveDir
  outgoing := none
  chunkDelay := 0
  due := []

/-- Both sides announce their file. The near side, where the file is in the
way of the directory, refuses; the far side accepts and loses interest in its
own file. The notice is still under way. -/
def crossing : List Step :=
  [.far (.act (.sendFile (.ofString "f") 1)), .near (.act (.sendFile (.ofString "f") 1)),
    .near (.deliver .unfailing), .far (.deliver .unfailing), .far (.act (.cancel 1))]

theorem toFar_crossing :
    ((start (holder "f") (holder "in")).run crossing).toFar = [Notice.frame .error 1] := by
  decide +kernel

/-- The notice about the file that the far side has announced as its first is
heeded, and ends the file that it receives as its second. -/
theorem refusals_run_crossing :
    ((start (holder "f") (holder "in")).issued crossing).1 < UInt32.size ∧
      ((start (holder "f") (holder "in")).issued crossing).2 < UInt32.size ∧
      (((start (holder "f") (holder "in")).run crossing).happen
        (.deliver .unfailing)).far.transfers.get? 2 = none := by
  have hissued : (start (holder "f") (holder "in")).issued crossing = (1, 2) := by decide +kernel
  have hnear : ((start (holder "f") (holder "in")).issued crossing).1 < UInt32.size := by
    rw [hissued]
    decide
  have hfar : ((start (holder "f") (holder "in")).issued crossing).2 < UInt32.size := by
    rw [hissued]
    decide
  have hnotice : Message.read? (Notice.frame .error 1) = some (.error 1) := Message.read?_notice rfl
  obtain ⟨-, hheeded⟩ :=
    (refusals_run (holder "f") (holder "in") crossing hnear hfar).1 .unfailing _ [] 1 toFar_crossing
      hnotice
  have hgone : ((start (holder "f") (holder "in")).run crossing).far.transfers.get? 1 = none := by
    decide +kernel
  have hlatest :
      ((start (holder "f") (holder "in")).run crossing).far.transfers.receivingId? 1 = some 2 := by
    decide +kernel
  exact ⟨hnear, hfar, (hheeded.strayed hgone 2 hlatest).1⟩

/-- A notice of failure does not always leave alone all transfers but the one
that it is about. -/
theorem not_refusals_spare_others :
    ¬ ∀ (near far : Endpoint) (steps : List Step), steps.length < UInt32.size →
      ∀ frame frames id, ((start near far).run steps).toFar = frame :: frames →
        Message.read? frame = some (.error id) → ∀ other, other ≠ id →
          (((start near far).run steps).happen (.deliver .unfailing)).far.transfers.get? other =
            ((start near far).run steps).far.transfers.get? other := by
  intro hspare
  have hnotice : Message.read? (Notice.frame .error 1) = some (.error 1) := Message.read?_notice rfl
  have hkept := hspare (holder "f") (holder "in") crossing (by decide) _ [] 1 toFar_crossing hnotice
    2 (by decide)
  revert hkept
  decide +kernel

end Exchange

end SessionEngine

import SessionEngine.Proofs.Transfer.Ascending
import SessionEngine.Proofs.Transfer.Carrier
import SessionEngine.Proofs.Transfer.Confinement
import SessionEngine.Proofs.Transfer.Entering

/-!
# What endpoints answer

The answer to a frame is chosen from what `receive` and `takeChunkBy` return,
while the book and the reports are changed by these operations themselves.
Here the two are compared: what came of a frame is read off the transfers
before and after it alone (`Entered`, `Brought`), and the answer is read as the
other side would read it (`said`).

`agrees_arrive` is the statement about one frame, for any transfers whose book
is in order, and `answers_agree` the one about a whole conversation. How the
system writes is up to each frame, so that a chunk that lies in its file can
fail as well. Reports are only made if somebody listens (`Transfers.heard`).
-/

namespace SessionEngine

namespace Transfer

/-! ## Reading answers -/

def said? : Action → Option Message
  | .send frame => Message.read? frame
  | .disconnect => none

def said (actions : List Action) : List (Option Message) := actions.map said?

theorem said_notify {kind : Kind} {id : TransferId} {m : Message}
    (h : Message.notice? kind id = some m) : said (Endpoint.notify kind id) = [some m] := by
  rw [Notice.notify_eq, said, List.map_singleton, said?, Message.read?_notice h]

/-! ## Requests -/

/-- The answer to a request agrees with what came of it. -/
structure RequestAgrees (request : Request) (before after : Transfers)
    (answer : List (Option Message)) : Prop where
  entered : Entered request before after ↔
    answer = if request.fileSize = 0 then
        [some (.response request.id), some (.complete request.id)]
      else [some (.response request.id)]
  refused : ¬ Entered request before after ↔ answer = [some (.error request.id)]
  unchanged : ¬ Entered request before after → after = before

theorem requestAgrees_of_refused (request : Request) (t : Transfers) :
    RequestAgrees request t t [some (.error request.id)] where
  entered := by
    refine iff_of_false (not_entered_self request t) fun heq => ?_
    split at heq <;> cases heq
  refused := iff_of_true (not_entered_self request t) rfl
  unchanged _ := rfl

theorem requestAgrees_of_entered {request : Request} {before after : Transfers}
    (hentered : Entered request before after) :
    RequestAgrees request before after
      (if request.fileSize = 0 then
        [some (.response request.id), some (.complete request.id)]
      else [some (.response request.id)]) where
  entered := iff_of_true hentered rfl
  refused := by
    refine iff_of_false (not_not_intro hentered) fun heq => ?_
    split at heq <;> cases heq
  unchanged hnot := absurd hentered hnot

theorem actions_onRequest (request : Request) (e : Endpoint) :
    (e.onRequest request).2 =
      match (e.transfers.receive e.disk e.receiveDir request).2.2 with
      | .ok _ => Endpoint.notify .response request.id ++
          if request.fileSize = 0 then Endpoint.notify .complete request.id else []
      | .error _ => Endpoint.notify .error request.id := by
  rw [Endpoint.onRequest]
  split
  next heq => rw [heq]
  next heq => rw [heq]

theorem requestAgrees_onRequest (request : Request) (e : Endpoint) :
    RequestAgrees request e.transfers (e.onRequest request).1.transfers
      (said (e.onRequest request).2) := by
  rw [Endpoint.onRequest_eq, actions_onRequest]
  dsimp only
  cases hresult : (e.transfers.receive e.disk e.receiveDir request).2.2 with
  | error error =>
      rw [Transfers.transfers_of_refused hresult, said_notify rfl]
      exact requestAgrees_of_refused request e.transfers
  | ok id =>
      have hsaid : said (Endpoint.notify .response request.id ++
          if request.fileSize = 0 then Endpoint.notify .complete request.id else []) =
            if request.fileSize = 0 then
              [some (.response request.id), some (.complete request.id)]
            else [some (.response request.id)] := by
        rw [said, List.map_append]
        split
        next => exact congrArg₂ (· ++ ·) (said_notify rfl) (said_notify rfl)
        next => exact congrArg (· ++ []) (said_notify rfl)
      rw [hsaid]
      exact requestAgrees_of_entered (Transfers.entered_of_accepted hresult).2

/-! ## Chunks -/

namespace Stage

/-- What is answered to a chunk that brings its transfer to this stage. -/
def answer (peer : TransferId) : Stage → List (Option Message)
  | absent => [some (.error peer)]
  | active => []
  | completed => [some (.complete peer)]

def reports (id : TransferId) (path : Path) : Stage → List Report
  | absent => [⟨id, false, path.text⟩]
  | active => []
  | completed => [⟨id, true, path.text⟩]

theorem answer_inj {peer : TransferId} {stage stage' : Stage} :
    stage.answer peer = stage'.answer peer ↔ stage = stage' := by
  refine ⟨fun h => ?_, fun h => h ▸ rfl⟩
  cases stage <;> cases stage' <;> first | rfl | cases h

end Stage

namespace Transfers

/-- No transfer waits for chunks under this id of the other side. -/
def Unawaited (peer : TransferId) (t : Transfers) : Prop :=
  ∀ id record, t.get? id = some record → record.peer? = some peer → record.completed = true

theorem Awaits.unique {t : Transfers} {id id' peer : TransferId} (h : t.Awaits id peer)
    (h' : t.Awaits id' peer) : id = id' := by
  obtain ⟨record, hget, hpeer, hactive⟩ := h.1
  obtain ⟨record', hget', hpeer', hactive'⟩ := h'.1
  exact UInt32.le_antisymm (h'.2 id record hget hpeer hactive)
    (h.2 id' record' hget' hpeer' hactive')

theorem Awaits.not_unawaited {t : Transfers} {id peer : TransferId} (h : t.Awaits id peer) :
    ¬ t.Unawaited peer := by
  intro hnone
  obtain ⟨record, hget, hpeer, hactive⟩ := h.1
  rw [hnone id record hget hpeer] at hactive
  cases hactive

end Transfers

/-- The transfer that waits for chunks under `peer` comes to stand at a stage,
and the others stay as they are. -/
structure Brought (peer id : TransferId) (stage : Stage) (before after : Transfers) : Prop where
  awaits : before.Awaits id peer
  stage : after.stage id = stage
  others : ∀ other, other ≠ id → after.get? other = before.get? other

/-- The answer to a chunk agrees with what came of it. -/
structure ChunkAgrees (peer : TransferId) (before after : Transfers)
    (answer : List (Option Message)) : Prop where
  settled : (∃ id stage, Brought peer id stage before after) ∨ before.Unawaited peer
  complete : answer = [some (.complete peer)] ↔ ∃ id, Brought peer id .completed before after
  error : answer = [some (.error peer)] ↔
    (∃ id, Brought peer id .absent before after) ∨ before.Unawaited peer
  silent : answer = [] ↔ ∃ id, Brought peer id .active before after
  reports : ∀ id stage, Brought peer id stage before after →
    ∀ record, before.get? id = some record →
      after.reports = before.reports ++ before.heard (stage.reports id record.path)
  unchanged : before.Unawaited peer → after = before

section Chunks

variable {peer id : TransferId} {stage : Stage} {before after : Transfers} {record : Record}

theorem Brought.unique {id' : TransferId} {stage' : Stage} (h : Brought peer id stage before after)
    (h' : Brought peer id' stage' before after) : id' = id ∧ stage' = stage := by
  obtain rfl := h.awaits.unique h'.awaits
  exact ⟨rfl, h'.stage.symm.trans h.stage⟩

theorem chunkAgrees_of_brought (stage : Stage) (h : Brought peer id stage before after)
    (hget : before.get? id = some record)
    (hreports : after.reports = before.reports ++ before.heard (stage.reports id record.path)) :
    ChunkAgrees peer before after (stage.answer peer) := by
  -- the answer tells the stage, and the stage is that of one transfer
  have htells (stage' : Stage) :
      stage.answer peer = stage'.answer peer ↔ ∃ id', Brought peer id' stage' before after := by
    rw [Stage.answer_inj]
    constructor
    · rintro rfl
      exact ⟨id, h⟩
    · rintro ⟨id', h'⟩
      exact (h.unique h').2.symm
  refine ⟨.inl ⟨id, stage, h⟩, htells .completed, ?_, htells .active, ?_, ?_⟩
  · rw [or_iff_left h.awaits.not_unawaited]
    exact htells .absent
  · intro id' stage' h' record' hget'
    obtain ⟨rfl, rfl⟩ := h.unique h'
    cases hget.symm.trans hget'
    exact hreports
  · intro hnone
    exact absurd hnone h.awaits.not_unawaited

theorem chunkAgrees_of_unawaited (h : before.Unawaited peer) :
    ChunkAgrees peer before before [some (.error peer)] := by
  have hnot : ∀ id stage, ¬ Brought peer id stage before before :=
    fun _ _ hbrought => hbrought.awaits.not_unawaited h
  refine ⟨.inr h, iff_of_false nofun ?_, iff_of_true rfl (.inr h), iff_of_false nofun ?_, ?_, ?_⟩
  · rintro ⟨id, hbrought⟩
    exact hnot id _ hbrought
  · rintro ⟨id, hbrought⟩
    exact hnot id _ hbrought
  · intro id stage hbrought
    exact absurd hbrought (hnot id stage)
  · intro _
    rfl

theorem chunkAgrees_onChunk (writer : FileWriter) (chunk : Chunk) (payload : Bytes) {e : Endpoint}
    (hbook : Transfers.Ascending e.transfers.book) :
    ChunkAgrees chunk.id e.transfers (e.onChunk writer chunk payload).1.transfers
      (said (e.onChunk writer chunk payload).2) := by
  cases htarget : e.transfers.target? chunk.id with
  | none =>
      simp only [Endpoint.onChunk, Transfers.takeChunkBy_of_no_target htarget]
      rw [said_notify rfl]
      exact chunkAgrees_of_unawaited ((Transfers.target?_eq_none_iff hbook).mp htarget)
  | some target =>
      obtain ⟨id, record⟩ := target
      obtain ⟨hget, hawaits⟩ := (Transfers.target?_eq_some_iff hbook).mp htarget
      have hactive := (Transfers.mem_of_target? htarget).2.2
      have hothers := fun other (hother : other ≠ id) =>
        (Transfers.takeChunkBy_moved htarget writer e.disk payload).get?_of_ne hother
      rcases Transfers.takeChunkBy_cases htarget writer e.disk payload with
        ⟨number, -, -, heq⟩ | ⟨disk, error, -, heq⟩
      · by_cases hends : (record.count payload.length).endsWith chunk = true
        · rw [if_pos hends] at heq
          rw [heq] at hothers
          simp only [Endpoint.onChunk, heq]
          rw [said_notify rfl]
          refine chunkAgrees_of_brought .completed ⟨hawaits, ?_, hothers⟩ hget ?_
          · rw [Transfers.stage_congr (Transfers.get?_report ..),
              Transfers.stage_of_get? (Transfers.get?_set_self ..), Record.finish, if_pos rfl]
          · exact Transfers.reports_report_heard ..
        · rw [if_neg hends] at heq
          rw [heq] at hothers
          simp only [Endpoint.onChunk, heq]
          refine chunkAgrees_of_brought .active ⟨hawaits, ?_, hothers⟩ hget ?_
          · rw [Transfers.stage_of_get? (Transfers.get?_set_self ..), Record.count, hactive]
            rfl
          · rw [Stage.reports, Transfers.heard_nil, List.append_nil]
            rfl
      · rw [heq] at hothers
        simp only [Endpoint.onChunk, heq]
        rw [said_notify rfl]
        refine chunkAgrees_of_brought .absent ⟨hawaits, ?_, hothers⟩ hget ?_
        · rw [Transfers.stage_congr (Transfers.get?_report ..),
            Transfers.stage_of_get?_none (Transfers.get?_remove_self ..)]
        · exact Transfers.reports_report_heard ..

end Chunks

/-! ## Conversations -/

/-- The answer to a message agrees with what came of it. Notices are not
answered. -/
def Agrees (before after : Transfers) (answer : List (Option Message)) : Message → Prop
  | .request request => RequestAgrees request before after answer
  | .response _ => answer = []
  | .chunk chunk _ => ChunkAgrees chunk.id before after answer
  | .complete _ => answer = []
  | .error _ => answer = []

namespace Endpoint

variable {e : Endpoint} {arrival : Arrival} {m : Message}

theorem agrees_arrive (hbook : Transfers.Ascending e.transfers.book)
    (hread : Message.read? arrival.frame = some m) :
    Agrees e.transfers (e.arrive arrival).1.transfers (said (e.arrive arrival).2) m := by
  rw [arrive, Message.packetBy_of_read? hread]
  cases m with
  | request request =>
      rw [Agrees, Message.answer]
      exact requestAgrees_onRequest request e
  | chunk chunk payload =>
      rw [Agrees, Message.answer]
      exact chunkAgrees_onChunk arrival.writer chunk payload hbook
  | response | complete | error =>
      rw [Agrees, Message.answer]
      rfl

/-- All that a conversation does to the transfers are operations. -/
theorem exists_operations_packets (e : Endpoint) (arrivals : List Arrival) :
    ∃ ops, (e.packets arrivals).transfers = Operation.run e.transfers ops := by
  induction arrivals generalizing e with
  | nil => exact ⟨[], rfl⟩
  | cons arrival arrivals ih =>
      obtain ⟨ops, hops⟩ := ih (e.arrive arrival).1
      refine ⟨e.packetOperations arrival.writer arrival.frame ++ ops, ?_⟩
      rw [Operation.run, List.foldl_append]
      rw [arrive, transfers_packetBy] at hops
      exact hops

/-- Whatever was done to the transfers of an endpoint before, whatever frames
have come since and whatever could be written of them, the answer to the next
frame agrees with what comes of it. -/
theorem answers_agree (listening : Bool) (ops : List Operation)
    (htransfers : e.transfers = Operation.run (Transfers.empty listening) ops)
    (arrivals : List Arrival) (hread : Message.read? arrival.frame = some m) :
    Agrees (e.packets arrivals).transfers ((e.packets arrivals).arrive arrival).1.transfers
      (said ((e.packets arrivals).arrive arrival).2) m := by
  obtain ⟨ops', hops⟩ := exists_operations_packets e arrivals
  rw [htransfers] at hops
  refine agrees_arrive ?_ hread
  rw [hops]
  exact Operation.ascending_run (Operation.ascending_run_empty listening ops) ops'

def untouched : Endpoint where
  transfers := Transfers.empty true
  disk := Disk.empty
  receiveDir := .ofString "in"
  outgoing := none
  chunkDelay := 0
  due := []

def fourBytesAnnounced : Bytes :=
  (Frame.build? Kind.request.id (Request.body ⟨"a", 4, 1, 4, 7⟩)).getD []

def fourBytesSent : Bytes := (Chunk.frame? ⟨7, 0, 4, true⟩ [1, 2, 3, 4]).getD []

/-- Takes this many bytes and has no space for more. -/
def filled (space : Nat) : FileWriter := fun _ _ bytes =>
  ⟨min space bytes.length, if space < bytes.length then some .noSpace else none,
    Nat.min_le_right _ _, by
      intro hnone
      split at hnone
      · cases hnone
      next hnot => exact Nat.min_eq_right (Nat.not_lt.mp hnot)⟩

/-- The file has been announced. -/
def awaiting : Endpoint := untouched.packets [⟨.unfailing, fourBytesAnnounced⟩]

/-- The chunk is confirmed and completes the file, or there is an error and the
file is given up if only half of the chunk can be written. -/
theorem answers_agree_fourBytes :
    (said (awaiting.arrive ⟨.unfailing, fourBytesSent⟩).2 = [some (.complete 7)] ∧
      ∃ id, Brought 7 id .completed awaiting.transfers
        (awaiting.arrive ⟨.unfailing, fourBytesSent⟩).1.transfers) ∧
      said (awaiting.arrive ⟨filled 2, fourBytesSent⟩).2 = [some (.error 7)] ∧
        ∃ id, Brought 7 id .absent awaiting.transfers
          (awaiting.arrive ⟨filled 2, fourBytesSent⟩).1.transfers := by
  have hread : Message.read? fourBytesSent = some (.chunk ⟨7, 0, 4, true⟩ [1, 2, 3, 4]) := by
    have hframe : Chunk.frame? ⟨7, 0, 4, true⟩ [1, 2, 3, 4] = some fourBytesSent := by
      decide +kernel
    exact Message.read?_chunk hframe
  have hagrees (writer : FileWriter) :=
    @answers_agree untouched ⟨writer, fourBytesSent⟩ _ true [] rfl
      [⟨.unfailing, fourBytesAnnounced⟩] hread
  rw [← awaiting] at hagrees
  have hcomplete : said (awaiting.arrive ⟨.unfailing, fourBytesSent⟩).2 =
      [some (.complete 7)] := by
    have hsent : (awaiting.arrive ⟨.unfailing, fourBytesSent⟩).2 = notify .complete 7 := by
      decide +kernel
    rw [hsent]
    exact said_notify rfl
  have hfailed : said (awaiting.arrive ⟨filled 2, fourBytesSent⟩).2 = [some (.error 7)] := by
    have hsent : (awaiting.arrive ⟨filled 2, fourBytesSent⟩).2 = notify .error 7 := by
      decide +kernel
    rw [hsent]
    exact said_notify rfl
  have hwaiting : ¬ awaiting.transfers.Unawaited 7 := by
    intro hnone
    have hrecord : awaiting.transfers.get? 1 =
        some ⟨.receiving 7, (Path.ofString "in").join "a", some 0, 4, 0, 4, 1, 0, false⟩ := by
      decide +kernel
    cases hnone 1 _ hrecord rfl
  exact ⟨⟨hcomplete, (hagrees .unfailing).complete.mp hcomplete⟩, hfailed,
    ((hagrees (filled 2)).error.mp hfailed).resolve_right hwaiting⟩

end Endpoint

end Transfer

end SessionEngine

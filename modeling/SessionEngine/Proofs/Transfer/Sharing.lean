import SessionEngine.Proofs.BlockPool.Loans
import SessionEngine.Proofs.Transfer.Operations

/-!
# Connections share a pool

Connections may read the files that they send through blocks of one pool. A
call for the next chunk of a file borrows a block if it comes to reading, and
it gives the block back whether the file could be read or not. `Call.Ends` has
a case for each way in which a call can end and `Call.ends` proves that there
is no other. Nothing else that is done with transfers touches the pool
(`Operation.pool_perform`), so that its history is one of loans
(`Sharing.pool_run`), and it has all its blocks back whenever a call has ended
(`Sharing.returned_run`).

A block comes with what was in it, and a file that cannot be read may leave
the beginning of a stretch there. None of this gets into a frame, since a frame
is made only of a block that has been filled by the same call.
-/

namespace SessionEngine

namespace Transfer

/-! ## What the pool holds does not matter -/

namespace Record

theorem exists_frame_of_read {r : Record} {reader : FileReader} {number : Nat} (id : TransferId)
    (hfailure : (reader number r.bytesTransferred r.nextLength).failure = none) :
    ∃ frame, (r.nextChunk id).frame? (reader number r.bytesTransferred r.nextLength).bytes =
      some frame := by
  refine Chunk.exists_frame? _ ?_
  rw [(reader number r.bytesTransferred r.nextLength).length_eq hfailure]
  exact Nat.min_le_right _ _

theorem snd_sendFrom (id : TransferId) (reader : FileReader) (r : Record) (pool pool' : BlockPool) :
    (r.sendFrom id reader pool).2 = (r.sendFrom id reader pool').2 := by
  by_cases hremaining : r.remaining = 0
  · rw [sendFrom, sendFrom, if_pos hremaining, if_pos hremaining]
  · cases hfile : r.file with
    | none => rw [sendFrom, sendFrom, if_neg hremaining, if_neg hremaining, hfile]
    | some number =>
        cases hfailure : (reader number r.bytesTransferred r.nextLength).failure with
        | some e =>
            rw [sendFrom_of_failure hremaining hfile hfailure,
              sendFrom_of_failure hremaining hfile hfailure]
        | none =>
            obtain ⟨frame, hframe⟩ := exists_frame_of_read id hfailure
            rw [sendFrom_of_read hremaining hfile hfailure hframe,
              sendFrom_of_read hremaining hfile hfailure hframe]

end Record

theorem Transfers.snd_sendNextFrom (connected : Bool) (reader : FileReader) (id : TransferId)
    (t : Transfers) (pool : BlockPool) :
    ({ t with pool }.sendNextFrom connected reader id).2 =
      (t.sendNextFrom connected reader id).2 := by
  have hget : ({ t with pool } : Transfers).get? id = t.get? id := rfl
  rw [sendNextFrom, sendNextFrom, hget]
  cases t.get? id with
  | none => rfl
  | some record =>
      dsimp only
      -- Up to the attempt itself both sides look at the record alone.
      split
      · rfl
      · split
        · rfl
        · cases connected with
          | false => rfl
          | true =>
              simp only [if_true, record.snd_sendFrom id reader pool t.pool]
              rcases (record.sendFrom id reader t.pool).2 with e | ⟨frame, moved, more | done⟩ <;>
                rfl

/-! ## One call -/

structure Call where
  before : Transfers
  id : TransferId
  connected : Bool
  /-- What comes of the attempt to read the file. -/
  reader : FileReader

namespace Call

variable (c : Call)

def after : Transfers := (c.before.sendNextFrom c.connected c.reader c.id).1

def frame : Option Bytes := (c.before.sendNextFrom c.connected c.reader c.id).2.1

def outcome : Except TransferError Progress :=
  (c.before.sendNextFrom c.connected c.reader c.id).2.2

def through (pool : BlockPool) : Call := { c with before := { c.before with pool } }

/-- What comes of reading the next stretch of a transfer's file. -/
def reading (record : Record) (number : Nat) : Reading record.nextLength :=
  c.reader number record.bytesTransferred record.nextLength

/-- The block that the stretch is read into. -/
def loan (record : Record) (number : Nat) : Loan where
  length := record.nextLength
  bytes := (c.reading record number).bytes
  length_le := (c.reading record number).length_le

/-- The call finds a transfer to the other side that is not complete. -/
structure Finds (record : Record) : Prop where
  get?_eq : c.before.get? c.id = some record
  sending : record.direction = .sending
  active : record.completed = false

/-- The transfer needs another chunk, and there is a connection to send it. -/
structure Needs (record : Record) : Prop extends c.Finds record where
  connected : c.connected = true
  remaining_ne : record.remaining ≠ 0

/-- How a call ends: the block that it borrowed, the pool that it left, the
frame that it sent and the answer that it gave. -/
inductive Ends : Option Loan → BlockPool → Option Bytes → Except TransferError Progress → Prop where
  | unknown (hget : c.before.get? c.id = none) :
      Ends none c.before.pool none (.error (.unknownTransfer c.id))
  | received {record : Record} (hget : c.before.get? c.id = some record)
      (hdirection : record.direction ≠ .sending) :
      Ends none c.before.pool none (.error (.wrongDirection c.id))
  | completed {record : Record} (hget : c.before.get? c.id = some record)
      (hdirection : record.direction = .sending) (hcompleted : record.completed = true) :
      Ends none c.before.pool none (.ok .done)
  | disconnected {record : Record} (hfinds : c.Finds record) (hconnected : c.connected = false) :
      Ends none c.before.pool none (.error (.disconnected c.id))
  /-- All has been sent, as of an empty file. -/
  | exhausted {record : Record} (hfinds : c.Finds record) (hconnected : c.connected = true)
      (hremaining : record.remaining = 0) :
      Ends none c.before.pool none (.ok .done)
  /-- The file is not open any more. -/
  | closed {record : Record} (hneeds : c.Needs record) (hfile : record.file = none) :
      Ends none c.before.pool none (.error (.io record.path.text .closed))
  /-- The file cannot be read, be it that the stretch cannot be reached or that
  only a part of it was read. -/
  | unreadable {record : Record} {number : Nat} {e : FileError} (hneeds : c.Needs record)
      (hfile : record.file = some number) (hfailure : (c.reading record number).failure = some e) :
      Ends (some (c.loan record number)) ((c.loan record number).after c.before.pool) none
        (.error (.io record.path.text e))
  /-- The frame carries what was read from the file, all of it and nothing
  else. -/
  | sent {record : Record} {number : Nat} {frame : Bytes} {head : Chunk} (hneeds : c.Needs record)
      (hfile : record.file = some number) (hfailure : (c.reading record number).failure = none)
      (hlength : (c.reading record number).bytes.length = record.nextLength)
      (hframe : (record.nextChunk c.id).frame? (c.reading record number).bytes = some frame)
      (hdecode : Chunk.decode frame = .ok (head, (c.reading record number).bytes)) :
      Ends (some (c.loan record number)) ((c.loan record number).after c.before.pool) (some frame)
        (.ok (if (record.nextChunk c.id).isLast then .done else .more))

/-- The block that the call borrows, if it comes to reading. -/
def loan? : Option Loan :=
  match c.before.get? c.id with
  | none => none
  | some record =>
      if record.direction = .sending ∧ record.completed = false ∧ c.connected = true ∧
          record.remaining ≠ 0 then
        record.file.map (c.loan record)
      else none

section Cases

variable {c} {record : Record}

/-- A call that cannot send a chunk leaves the pool alone. -/
theorem ends_of_unmoved {outcome : Except TransferError Progress} (hloan : c.loan? = none)
    (hnext : c.before.sendNextFrom c.connected c.reader c.id = (c.before, none, outcome))
    (h : c.Ends none c.before.pool none outcome) :
    c.Ends c.loan? c.after.pool c.frame c.outcome := by
  rw [after, Call.frame, Call.outcome, hnext, hloan]
  exact h

/-- The call passes on what comes of the transfer. -/
theorem results_of_sendFrom (h : c.Finds record) (hconnected : c.connected = true)
    {pool : BlockPool} {result : Except TransferError Record.Sent}
    (hsent : record.sendFrom c.id c.reader c.before.pool = (pool, result)) :
    c.after.pool = pool ∧ c.frame = result.toOption.bind Record.Sent.frame ∧
      c.outcome = result.map Record.Sent.progress := by
  have hnext := Transfers.sendNextFrom_of_connected h.get?_eq h.sending h.active c.reader
  rw [hsent] at hnext
  rw [after, Call.frame, Call.outcome, hconnected, hnext]
  rcases result with e | ⟨frame, moved, more | done⟩
  · exact ⟨Transfers.pool_report .., rfl, rfl⟩
  · exact ⟨rfl, rfl, rfl⟩
  · exact ⟨Transfers.pool_report .., rfl, rfl⟩

theorem ends_of_disconnected (h : c.Finds record) (hconnected : c.connected = false) :
    c.Ends c.loan? c.after.pool c.frame c.outcome := by
  have hloan : c.loan? = none := by
    rw [loan?, h.get?_eq]
    exact if_neg fun hneeds => Bool.noConfusion (hconnected.symm.trans hneeds.2.2.1)
  have hnext := Transfers.sendNextFrom_of_disconnected h.get?_eq h.sending h.active c.reader
  rw [after, Call.frame, Call.outcome, hconnected, hnext, hloan, Transfers.pool_report]
  exact .disconnected h hconnected

theorem ends_of_exhausted (h : c.Finds record) (hconnected : c.connected = true)
    (hremaining : record.remaining = 0) : c.Ends c.loan? c.after.pool c.frame c.outcome := by
  have hloan : c.loan? = none := by
    rw [loan?, h.get?_eq]
    exact if_neg fun hneeds => hneeds.2.2.2 hremaining
  have hsent : record.sendFrom c.id c.reader c.before.pool =
      (c.before.pool, .ok ⟨none, record, .done⟩) := by rw [Record.sendFrom, if_pos hremaining]
  obtain ⟨hpool, hframe, houtcome⟩ := results_of_sendFrom h hconnected hsent
  rw [hloan, hpool, hframe, houtcome]
  exact .exhausted h hconnected hremaining

theorem loan?_of_needs (h : c.Needs record) : c.loan? = record.file.map (c.loan record) := by
  rw [loan?, h.get?_eq]
  exact if_pos ⟨h.sending, h.active, h.connected, h.remaining_ne⟩

theorem ends_of_closed (h : c.Needs record) (hfile : record.file = none) :
    c.Ends c.loan? c.after.pool c.frame c.outcome := by
  have hsent : record.sendFrom c.id c.reader c.before.pool =
      (c.before.pool, .error (.io record.path.text .closed)) := by
    rw [Record.sendFrom, if_neg h.remaining_ne, hfile]
  obtain ⟨hpool, hframe, houtcome⟩ := results_of_sendFrom h.toFinds h.connected hsent
  rw [loan?_of_needs h, hfile, hpool, hframe, houtcome]
  exact .closed h hfile

/-- A call that comes to reading gives its block back, with or without a
frame. -/
theorem ends_of_open {number : Nat} (h : c.Needs record) (hfile : record.file = some number) :
    c.Ends c.loan? c.after.pool c.frame c.outcome := by
  cases hfailure : (c.reading record number).failure with
  | some e =>
      obtain ⟨hpool, hframe, houtcome⟩ := results_of_sendFrom h.toFinds h.connected
        (Record.sendFrom_of_failure h.remaining_ne hfile hfailure c.before.pool)
      rw [loan?_of_needs h, hfile, hpool, hframe, houtcome]
      exact .unreadable h hfile hfailure
  | none =>
      obtain ⟨frame, hbuilt⟩ := Record.exists_frame_of_read c.id hfailure
      obtain ⟨hpool, hframe, houtcome⟩ := results_of_sendFrom h.toFinds h.connected
        (Record.sendFrom_of_read h.remaining_ne hfile hfailure hbuilt c.before.pool)
      rw [loan?_of_needs h, hfile, hpool, hframe, houtcome]
      exact .sent h hfile hfailure ((c.reading record number).length_eq hfailure) hbuilt
        (Chunk.decode_of_frame? hbuilt)

end Cases

/-- There is no other way for a call to end. -/
theorem ends : c.Ends c.loan? c.after.pool c.frame c.outcome := by
  -- The cases are split in the order in which a call makes its checks.
  cases hget : c.before.get? c.id with
  | none =>
      have hloan : c.loan? = none := by rw [loan?, hget]
      exact ends_of_unmoved hloan (Transfers.sendNextFrom_of_none hget _ _) (.unknown hget)
  | some record =>
      have hidle (hnot : ¬ (record.direction = .sending ∧ record.completed = false)) :
          c.loan? = none := by
        rw [loan?, hget]
        exact if_neg fun hneeds => hnot ⟨hneeds.1, hneeds.2.1⟩
      by_cases hdirection : record.direction = .sending
      · cases hcompleted : record.completed with
        | true =>
            have hloan : c.loan? = none :=
              hidle fun hactive => Bool.noConfusion (hcompleted.symm.trans hactive.2)
            exact ends_of_unmoved hloan
              (Transfers.sendNextFrom_of_completed hget hdirection hcompleted _ _)
              (.completed hget hdirection hcompleted)
        | false =>
            have hfinds : c.Finds record := ⟨hget, hdirection, hcompleted⟩
            cases hconnected : c.connected with
            | false => exact ends_of_disconnected hfinds hconnected
            | true =>
                by_cases hremaining : record.remaining = 0
                · exact ends_of_exhausted hfinds hconnected hremaining
                · have hneeds : c.Needs record := ⟨hfinds, hconnected, hremaining⟩
                  cases hfile : record.file with
                  | none => exact ends_of_closed hneeds hfile
                  | some number => exact ends_of_open hneeds hfile
      · exact ends_of_unmoved (hidle fun hactive => hdirection hactive.1)
          (Transfers.sendNextFrom_of_receiving hget hdirection _ _) (.received hget hdirection)

theorem frame_through (pool : BlockPool) : (c.through pool).frame = c.frame :=
  congrArg Prod.fst (c.before.snd_sendNextFrom c.connected c.reader c.id pool)

/-- The pool is left as the call's loan leaves it. -/
theorem pool_after : c.after.pool = Loan.afterAll c.loan?.toList c.before.pool := by
  have h := c.ends
  generalize c.loan? = borrowed, c.after.pool = pool, c.frame = frame, c.outcome = outcome at h ⊢
  cases h <;> rfl

end Call

/-! ## Operations -/

namespace Operation

def call? (t : Transfers) : Operation → Option Call
  | sendNext connected reader id => some ⟨t, id, connected, reader⟩
  | _ => none

/-- Only calls for chunks use the pool. -/
theorem pool_perform (op : Operation) (t : Transfers) :
    (op.perform t).pool = Loan.afterAll ((op.call? t).bind Call.loan?).toList t.pool := by
  cases op with
  | send disk path requested =>
      rcases t.send_cases disk path requested with ⟨e, heq⟩ | ⟨e, heq⟩ |
        ⟨number, size, chunkSize, chunksTotal, frame, heq⟩ <;> rw [perform, heq] <;> rfl
  | receive disk dir request =>
      rcases t.receive_cases disk dir request with ⟨disk', e, heq⟩ |
        ⟨disk', name, number, -, -, heq⟩ <;> rw [perform, heq]
      · rfl
      · dsimp only
        split
        · exact Transfers.pool_report ..
        · rfl
  | takeChunk writer disk chunk payload =>
      cases htarget : t.target? chunk.id with
      | none =>
          rw [perform, Transfers.takeChunkBy_of_no_target htarget]
          rfl
      | some target => exact (Transfers.takeChunkBy_moved htarget writer disk payload).pool_eq
  | sendNext connected reader id => exact Call.pool_after ⟨t, id, connected, reader⟩
  | cancel id => rfl
  | abort id =>
      rw [perform, Transfers.abort]
      split
      · exact Transfers.pool_report ..
      · rfl
  | failActive => exact Transfers.pool_foldl_report _ _
  | reportFailedSend path => exact Transfers.pool_report ..

end Operation

/-! ## Many connections -/

/-- Connections that read their files through one pool. -/
structure Sharing where
  pool : BlockPool
  connections : List Transfers

namespace Sharing

/-- The transfers of a connection, with the pool that is shared. -/
def at? (place : Nat) (s : Sharing) : Option Transfers :=
  (s.connections[place]?).map fun t => { t with pool := s.pool }

/-- Does something with the transfers of a connection. -/
def act (place : Nat) (f : Transfers → Transfers) (s : Sharing) : Sharing :=
  match s.at? place with
  | some t => ⟨(f t).pool, s.connections.set place (f t)⟩
  | none => s

/-- Something is done with the transfers of a connection. -/
structure Step where
  place : Nat
  operation : Operation

def step (s : Sharing) (action : Step) : Sharing :=
  s.act action.place fun t => action.operation.perform t

def run (s : Sharing) (steps : List Step) : Sharing := steps.foldl step s

/-- The call that is made in a step, if one is made. -/
def call? (s : Sharing) (action : Step) : Option Call :=
  (s.at? action.place).bind fun t => action.operation.call? t

def calls (s : Sharing) : List Step → List Call
  | [] => []
  | first :: rest => (s.call? first).toList ++ (s.step first).calls rest

def loans (s : Sharing) (steps : List Step) : List Loan := (s.calls steps).filterMap Call.loan?

/-- What is true of the pool and the calls of a run. -/
structure Returned (start : Sharing) (steps : List Step) : Prop where
  /-- The pool has given the loans that the calls took, and no block is in
  use. -/
  holdings_eq : Holdings.run ⟨start.pool, []⟩ (Loan.stepsOf (start.loans steps)) =
    ⟨(start.run steps).pool, []⟩
  sizes_eq : BlockPool.sizesOf (start.run steps).pool = BlockPool.sizes
  /-- All blocks that were created are available. -/
  created_eq : ∀ c ∈ (start.run steps).pool, c.created = c.free.length
  created_le : ∀ c ∈ (start.run steps).pool, c.created ≤ 1
  ends : ∀ c ∈ start.calls steps, c.Ends c.loan? c.after.pool c.frame c.outcome
  /-- What is sent would be the same with any other pool. -/
  frame_through : ∀ c ∈ start.calls steps, ∀ pool, (c.through pool).frame = c.frame

section Runs

variable (s : Sharing)

theorem pool_act {place : Nat} {f : Transfers → Transfers} {borrowed? : Transfers → Option Loan}
    (h : ∀ t, (f t).pool = Loan.afterAll (borrowed? t).toList t.pool) :
    (s.act place f).pool = Loan.afterAll ((s.at? place).bind borrowed?).toList s.pool := by
  rw [act]
  cases hat : s.at? place with
  | none => rfl
  | some t =>
      obtain ⟨own, -, rfl⟩ := Option.map_eq_some_iff.mp hat
      exact h _

/-- A step leaves the pool as the loan of its call does, if it makes one. -/
theorem pool_step (action : Step) :
    (s.step action).pool = Loan.afterAll ((s.call? action).bind Call.loan?).toList s.pool := by
  rw [call?, Option.bind_assoc]
  exact s.pool_act action.operation.pool_perform

theorem loans_cons (first : Step) (rest : List Step) :
    s.loans (first :: rest) =
      ((s.call? first).bind Call.loan?).toList ++ (s.step first).loans rest := by
  rw [loans, calls, List.filterMap_append]
  congr 1
  cases s.call? first with
  | none => rfl
  | some c => rfl

theorem pool_run (steps : List Step) :
    (s.run steps).pool = Loan.afterAll (s.loans steps) s.pool := by
  induction steps generalizing s with
  | nil => rfl
  | cons first rest ih =>
      -- The first loan leaves the pool that the other calls start from.
      rw [loans_cons, Loan.afterAll, List.foldl_append, ← Loan.afterAll, ← Loan.afterAll,
        ← pool_step]
      exact ih (s.step first)

end Runs

/-- Connections that share a new pool leave no block of it behind in any run,
and nothing gets into a frame but what was read for it. -/
theorem returned_run (connections : List Transfers) (steps : List Step) :
    Returned ⟨BlockPool.empty, connections⟩ steps := by
  have hpool := pool_run ⟨BlockPool.empty, connections⟩ steps
  refine ⟨?_, ?_, ?_, ?_, fun c _ => c.ends, fun c _ => c.frame_through⟩
  · rw [hpool]
    exact Loan.run_stepsOf _ _
  · rw [hpool]
    exact (Loan.fitting_afterAll _).sizes_eq
  · rw [hpool]
    exact fun c hc => (Loan.balanced _ hc).1
  · rw [hpool]
    exact fun c hc => (Loan.balanced _ hc).2

/-- Of three connections, the first cannot reach the file, and the second finds
only three bytes of four. They stay in the block, but the third sends nothing
of them. -/
example :
    let sending (size : Nat) : Transfers :=
      { Transfers.empty true with
        book := [(1, ⟨.sending, .ofString "a", some 0, size, 0, 4, 1, 0, false⟩)] }
    let holding (bytes : Bytes) : FileReader := (Disk.mk [] [.ofBytes bytes]).reader
    let start : Sharing := ⟨BlockPool.empty, [sending 4, sending 4, sending 2]⟩
    let steps : List Step :=
      [⟨0, .sendNext true (fun _ _ length => ⟨[], some .denied, Nat.zero_le length, nofun⟩) 1⟩,
        ⟨1, .sendNext true (holding [9, 9, 9]) 1⟩, ⟨2, .sendNext true (holding [7, 8]) 1⟩]
    (start.calls steps).map (fun c => c.frame.map fun frame => (Chunk.decode frame).map Prod.snd) =
        [none, none, some (.ok [7, 8])] ∧
      BlockPool.classFor? 4 (start.run steps).pool =
        some ⟨32, [[7, 8, 9] ++ List.replicate 29 0], 1⟩ := by
  decide +kernel

end Sharing

end Transfer

end SessionEngine

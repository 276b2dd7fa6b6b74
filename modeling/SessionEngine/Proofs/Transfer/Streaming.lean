import SessionEngine.Proofs.Session.Frames
import SessionEngine.Proofs.Transfer.Directions
import SessionEngine.Proofs.Transfer.EndToEnd

/-!
# Files are streamed

The next chunk of a file is called for from several places: every response of
the other side starts a chain that keeps itself going through the list of
chunks that are due, and there are direct calls as well. All of them come to an
`Attempt`, and nothing else moves the file. So the attempts for one file follow
one course, in whatever order the chains take their turns (`Course`): chunk
after chunk, until the last is sent or one cannot be.

Each attempt has its own reader. It fails if the stretch of the chunk cannot be
read, whatever the reason, and sends what was read otherwise. If the reader
tells what is on the disk (`Disk.Tells`), these are the bytes that the file
holds by then; meanwhile the disk may change.
-/

namespace SessionEngine

namespace Transfer

/-! ## Attempts -/

/-- A call for the next chunk of a file. -/
structure Attempt where
  before : Endpoint
  id : TransferId
  connected : Bool
  /-- What comes of the attempt to read the file. -/
  reader : FileReader

namespace Attempt

variable (a : Attempt)

def after : Endpoint := (a.before.sendChunkFrom a.reader a.id a.connected).1

def actions : List Action := (a.before.sendChunkFrom a.reader a.id a.connected).2.1

def outcome : Except TransferError Progress :=
  (a.before.sendChunkFrom a.reader a.id a.connected).2.2

def reports : List Report :=
  a.after.transfers.reports.drop a.before.transfers.reports.length

/-- What a file holds by then. -/
def contents (number : Nat) : Bytes := (a.before.disk.content number).toBytes

end Attempt

/-- What happens while files are sent. -/
inductive Happening where
  /-- The other side accepts a file, perhaps not for the first time. -/
  | accepted (id : TransferId)
  /-- A chunk is sent that is due. -/
  | due (place : Nat) (connected : Bool) (reader : FileReader)
  /-- The next chunk of a file is called for directly. -/
  | called (id : TransferId) (connected : Bool) (reader : FileReader)
  /-- Somebody else uses the disk. -/
  | disk (disk : Disk)

namespace Endpoint

def react : Reaction Happening Endpoint
  | .accepted id, e => e.packet (Notice.frame .response id)
  | .due place connected reader, e => e.sendDueFrom reader place connected
  | .called id connected reader, e =>
      ((e.sendChunkFrom reader id connected).1, (e.sendChunkFrom reader id connected).2.1)
  | .disk disk, e => ({ e with disk }, [])

def attempt? : Happening → Endpoint → Option Attempt
  | .accepted _, _ => none
  | .due place connected reader, e =>
      (e.due[place]?).map fun d =>
        ⟨{ e with due := e.due.eraseIdx place }, d.id, connected, reader⟩
  | .called id connected reader, e => some ⟨e, id, connected, reader⟩
  | .disk _, _ => none

def attempts : List Happening → Endpoint → List Attempt
  | [], _ => []
  | happening :: happenings, e =>
      (attempt? happening e).toList ++ attempts happenings (react happening e).1

def attemptsFor (id : TransferId) (happenings : List Happening) (e : Endpoint) : List Attempt :=
  (attempts happenings e).filter fun a => a.id = id

end Endpoint

/-! ## What becomes of them -/

namespace Shipment

/-- What stands where a chunk lies, if the file holds these bytes. -/
def portion (s : Shipment) (contents : Bytes) (k : Nat) : Bytes :=
  contents.extract (k * s.chunkSize) (min ((k + 1) * s.chunkSize) s.source.length)

/-- A frame carries these bytes as the chunk with this number. -/
structure Carries (s : Shipment) (payload : Bytes) (k : Nat) (frame : Bytes) : Prop where
  reads : ∃ chunk, Message.read? frame = some (.chunk chunk payload) ∧
    chunk.id = s.id ∧ chunk.index.toNat = k ∧ chunk.size.toNat = payload.length ∧
    (chunk.isLast = true ↔ k + 1 = s.chunksTotal.toNat)
  length : payload.length = min s.chunkSize (s.source.length - k * s.chunkSize)

end Shipment

namespace Attempt

def reading (s : Shipment) (number k : Nat) (a : Attempt) : Reading (s.slice k).length :=
  s.reading a.reader number k

/-- The attempt sends the chunk with this number. If the file is empty, there
is none, and the attempt finds that out. -/
structure Sends (s : Shipment) (path : Path) (number k : Nat) (a : Attempt) : Prop where
  connected : a.connected = true
  readable : k < s.chunksTotal.toNat → (a.reading s number k).failure = none
  frame : k < s.chunksTotal.toNat →
    ∃ frame, a.actions = [.send frame] ∧ s.Carries (a.reading s number k).bytes k frame
  no_frame : s.chunksTotal.toNat = 0 → a.actions = []
  /-- What is sent is what the file holds by then. -/
  told : k < s.chunksTotal.toNat → a.before.disk.Tells a.reader →
    s.moved (k + 1) ≤ (a.contents number).length ∧
      (a.reading s number k).bytes = s.portion (a.contents number) k
  outcome : a.outcome = .ok (if k + 1 = s.turns then .done else .more)
  reports : a.reports = if k + 1 = s.turns then [⟨s.id, true, path.text⟩] else []

/-- Why the chunk with this number cannot be sent. -/
inductive Hindered (s : Shipment) (path : Path) (number k : Nat) (a : Attempt) :
    TransferError → Prop where
  | disconnected (hconnected : a.connected = false) :
      Hindered s path number k a (.disconnected s.id)
  | unreadable {e : FileError} (hconnected : a.connected = true)
      (hsome : k < s.chunksTotal.toNat) (hfailure : (a.reading s number k).failure = some e) :
      Hindered s path number k a (.io path.text e)

/-- The attempt fails, since the connection is closed or the file cannot be
read. -/
structure Fails (s : Shipment) (path : Path) (number k : Nat) (a : Attempt) : Prop where
  outcome : ∃ error, a.Hindered s path number k error ∧ a.outcome = .error error
  actions : a.actions = []
  reports : a.reports = [⟨s.id, false, path.text⟩]

/-- The attempt has this outcome, and nothing else comes of it. -/
structure Idle (outcome : Except TransferError Progress) (a : Attempt) : Prop where
  after : a.after = a.before
  actions : a.actions = []
  outcome : a.outcome = outcome

end Attempt

/-- The course that the attempts for a file take after so many turns. -/
inductive Shipment.Course (s : Shipment) (path : Path) (number : Nat) :
    Nat → List Attempt → Prop where
  | pending {k : Nat} (hturn : k < s.turns) : Course s path number k []
  | more {k : Nat} {a : Attempt} {rest : List Attempt} (hmore : k + 1 < s.turns)
      (hsends : a.Sends s path number k) (hrest : Course s path number (k + 1) rest) :
      Course s path number k (a :: rest)
  | last {k : Nat} {a : Attempt} {rest : List Attempt} (hlast : k + 1 = s.turns)
      (hsends : a.Sends s path number k) (hrest : ∀ b ∈ rest, b.Idle (.ok .done)) :
      Course s path number k (a :: rest)
  | failed {k : Nat} {a : Attempt} {rest : List Attempt} (hturn : k < s.turns)
      (hfails : a.Fails s path number k)
      (hrest : ∀ b ∈ rest, b.Idle (.error (.unknownTransfer s.id))) :
      Course s path number k (a :: rest)

/-- All that is sent and reported comes of attempts, each of which concerns its
own transfer. -/
structure Accounted (happenings : List Happening) (e : Endpoint) : Prop where
  actions : Reaction.actions Endpoint.react happenings e =
    (Endpoint.attempts happenings e).flatMap Attempt.actions
  reports : (Reaction.after Endpoint.react happenings e).transfers.reports =
    e.transfers.reports ++ (Endpoint.attempts happenings e).flatMap Attempt.reports
  own_frame : ∀ a ∈ Endpoint.attempts happenings e, ∀ frame, .send frame ∈ a.actions →
    ∃ chunk payload, Message.read? frame = some (.chunk chunk payload) ∧ chunk.id = a.id
  own_report : ∀ a ∈ Endpoint.attempts happenings e, ∀ report ∈ a.reports, report.id = a.id

/-! ## One attempt -/

theorem Endpoint.sendChunkFrom_of_unmoved {e : Endpoint} {reader : FileReader} {id : TransferId}
    {connected : Bool} {outcome : Except TransferError Progress}
    (h : e.transfers.sendNextFrom connected reader id = (e.transfers, none, outcome))
    (hmore : outcome ≠ .ok .more) : e.sendChunkFrom reader id connected = (e, [], outcome) := by
  unfold Endpoint.sendChunkFrom
  rw [h]
  rcases outcome with error | more | done
  · rfl
  · exact absurd rfl hmore
  · rfl

/-- Only files that this side sends can be called for. -/
theorem Endpoint.sendChunkFrom_of_not_sending {e : Endpoint} {id : TransferId}
    (h : ∀ record, e.transfers.get? id = some record → record.direction ≠ .sending)
    (connected : Bool) (reader : FileReader) :
    e.sendChunkFrom reader id connected = (e, [], .error
      (if (e.transfers.get? id).isSome then .wrongDirection id else .unknownTransfer id)) := by
  cases hget : e.transfers.get? id with
  | none =>
      exact sendChunkFrom_of_unmoved (Transfers.sendNextFrom_of_none hget connected reader) nofun
  | some record =>
      exact sendChunkFrom_of_unmoved
        (Transfers.sendNextFrom_of_receiving hget (h record hget) connected reader) nofun

namespace Attempt

variable (a : Attempt)

theorem transfers_after :
    a.after.transfers = (a.before.transfers.sendNextFrom a.connected a.reader a.id).1 :=
  Act.transfers_sendChunkFrom a.reader a.id a.connected a.before

theorem actions_eq :
    a.actions =
      (a.before.transfers.sendNextFrom a.connected a.reader a.id).2.1.toList.map .send := rfl

theorem outcome_eq :
    a.outcome = (a.before.transfers.sendNextFrom a.connected a.reader a.id).2.2 := rfl

theorem closes_actions : Action.closes a.actions = false := by
  rw [actions_eq]
  exact Action.closes_map_send _

/-- An attempt concerns nothing but its own transfer. -/
theorem after_cases :
    a.after.transfers = a.before.transfers ∨
      ∃ pool, Transfers.Moved a.id { a.before.transfers with pool } a.after.transfers := by
  rw [transfers_after]
  rcases Transfers.sendNextFrom_cases a.connected a.reader a.id a.before.transfers with
    hsame | ⟨_, pool, -, -, -, hmoved⟩
  · exact Or.inl hsame
  · exact Or.inr ⟨pool, hmoved⟩

theorem listening_after : a.after.transfers.listening = a.before.transfers.listening := by
  rcases a.after_cases with hsame | ⟨pool, hmoved⟩
  · rw [hsame]
  · exact hmoved.listening_eq

theorem get?_after_of_ne {id : TransferId} (hne : id ≠ a.id) :
    a.after.transfers.get? id = a.before.transfers.get? id := by
  rcases a.after_cases with hsame | ⟨pool, hmoved⟩
  · rw [hsame]
  · exact hmoved.get?_of_ne hne

variable {a} in
theorem reports_of_append {told : List Report}
    (h : a.after.transfers.reports = a.before.transfers.reports ++ told) : a.reports = told := by
  rw [reports, h, List.drop_left]

theorem reports_after :
    a.after.transfers.reports = a.before.transfers.reports ++ a.reports ∧
      ∀ report ∈ a.reports, report.id = a.id := by
  obtain ⟨told, htold, hown⟩ : ∃ told,
      a.after.transfers.reports = a.before.transfers.reports ++ told ∧
        ∀ report ∈ told, report.id = a.id := by
    rcases a.after_cases with hsame | ⟨pool, hmoved⟩
    · rw [hsame]
      exact ⟨[], (List.append_nil _).symm, fun _ hmem => absurd hmem List.not_mem_nil⟩
    · exact hmoved.exists_reports
  rw [reports_of_append htold]
  exact ⟨htold, hown⟩

theorem own_frame {frame : Bytes} (h : .send frame ∈ a.actions) :
    ∃ chunk payload, Message.read? frame = some (.chunk chunk payload) ∧ chunk.id = a.id := by
  rw [actions_eq, List.mem_map] at h
  obtain ⟨sent, hmem, hsent⟩ := h
  obtain rfl := Action.send.inj hsent
  exact (Transfers.chunk_of_sendNextFrom (Option.mem_toList.mp hmem)).2

variable {a}

theorem idle_of_sendChunkFrom {outcome : Except TransferError Progress}
    (h : a.before.sendChunkFrom a.reader a.id a.connected = (a.before, [], outcome)) :
    a.Idle outcome := by
  refine ⟨?_, ?_, ?_⟩
  · rw [after, h]
  · rw [actions, h]
  · rw [Attempt.outcome, h]

end Attempt

/-! ## Turns -/

namespace Shipment

section Turn

variable {s : Shipment} {path : Path} {number k : Nat} {reader : FileReader}

theorem read_eq_portion (h : k < s.chunksTotal.toNat) (disk : Disk) :
    disk.read number (s.moved k) (s.slice k).length =
      s.portion (disk.content number).toBytes k := by
  have hlt := s.mul_lt k h
  rw [Disk.read, Content.read_eq, portion, List.extract_eq_take_drop, Cutting.moved_of_lt h,
    s.length_slice, Nat.succ_mul]
  congr 1
  omega

/-- A reader that gets through to the end of a chunk has read what the file
holds there. -/
theorem bytes_reading (h : k < s.chunksTotal.toNat) {disk : Disk} (htells : disk.Tells reader)
    (hfailure : (s.reading reader number k).failure = none) :
    s.moved (k + 1) ≤ (disk.content number).toBytes.length ∧
      (s.reading reader number k).bytes = s.portion (disk.content number).toBytes k := by
  have hlength := (s.reading reader number k).length_eq hfailure
  have hbytes : (s.reading reader number k).bytes = _ := htells.bytes_eq hfailure
  refine ⟨?_, hbytes.trans (read_eq_portion h disk)⟩
  have hsome : 0 < (s.slice k).length := by
    have hlt := s.mul_lt k h
    have hpos := s.chunkSize_pos
    rw [s.length_slice]
    omega
  rw [hbytes, Disk.read, Content.read_eq, List.length_take, List.length_drop] at hlength
  rw [← Cutting.moved_succ h]
  omega

theorem carries_of_frame? {frame : Bytes} (h : k < s.chunksTotal.toNat)
    (hfailure : (s.reading reader number k).failure = none)
    (hframe : (s.chunk k).frame? (s.reading reader number k).bytes = some frame) :
    s.Carries (s.reading reader number k).bytes k frame := by
  have hlength := (s.reading reader number k).length_eq hfailure
  refine ⟨⟨_, Message.read?_chunk hframe, rfl, ?_, ?_, ?_⟩, ?_⟩
  · exact UInt32.toNat_ofNat_of_lt' (Nat.lt_trans h s.chunksTotal.toNat_lt)
  · rw [hlength]
    exact s.toNat_size k
  · exact decide_eq_true_iff
  · rw [hlength, s.length_slice]

/-- The turn after the first `k`, if its chunk can be read. -/
theorem sendNextFrom_turn {t : Transfers} (hturn : k < s.turns)
    (hget : t.get? s.id = some (s.outgoing path number k))
    (hreadable : k < s.chunksTotal.toNat → (s.reading reader number k).failure = none) :
    ∃ pool frame, t.sendNextFrom true reader s.id =
        (if k + 1 = s.turns then
          (({ t with pool }.set s.id
            (s.outgoing path number s.chunksTotal.toNat).finish).report s.id true path,
            frame, .ok .done)
        else ({ t with pool }.set s.id (s.outgoing path number (k + 1)), frame, .ok .more)) ∧
      (k < s.chunksTotal.toNat → ∃ built, frame = some built ∧
        s.Carries (s.reading reader number k).bytes k built) ∧
      (s.chunksTotal.toNat = 0 → frame = none) := by
  rcases Nat.eq_zero_or_pos s.chunksTotal.toNat with hempty | hpos
  · have hturns : s.turns = 1 := by rw [turns, hempty, Nat.zero_max]
    obtain rfl : k = 0 := by omega
    refine ⟨t.pool, none, ?_, fun h => absurd h (by omega), fun _ => rfl⟩
    rw [if_pos hturns.symm, hempty]
    exact sendNextFrom_of_empty reader hempty hget
  · have hturns : s.turns = s.chunksTotal.toNat := Nat.max_eq_left hpos
    have h : k < s.chunksTotal.toNat := by omega
    have hfailure := hreadable h
    have hfit : (s.reading reader number k).bytes.length ≤ Chunk.maxPayload := by
      rw [(s.reading reader number k).length_eq hfailure]
      exact Nat.le_trans (s.length_slice_le k) s.chunkSize_le
    obtain ⟨frame, hframe⟩ := Chunk.exists_frame? (s.chunk k) hfit
    obtain ⟨pool, hnext⟩ := sendNextFrom_of_read h hget hfailure hframe
    refine ⟨pool, some frame, ?_, fun _ => ⟨frame, rfl, carries_of_frame? h hfailure hframe⟩,
      fun hzero => absurd hzero (by omega)⟩
    rw [hturns, hnext]
    by_cases hlast : k + 1 = s.chunksTotal.toNat
    · rw [if_pos hlast, if_pos hlast, hlast]
    · rw [if_neg hlast, if_neg hlast]

end Turn

end Shipment

namespace Attempt

section Step

variable {s : Shipment} {path : Path} {number k : Nat} {a : Attempt}
  (hid : a.id = s.id) (hlistening : a.before.transfers.listening = true)
  (hget : a.before.transfers.get? s.id = some (s.outgoing path number k))

include hid hlistening hget

theorem sends_of_readable (hturn : k < s.turns) (hconnected : a.connected = true)
    (hreadable : k < s.chunksTotal.toNat → (a.reading s number k).failure = none) :
    a.Sends s path number k ∧ a.after.transfers.get? s.id =
      some (if k + 1 = s.turns then (s.outgoing path number s.chunksTotal.toNat).finish
        else s.outgoing path number (k + 1)) := by
  obtain ⟨pool, frame, hnext, hsome, hnone⟩ := Shipment.sendNextFrom_turn hturn hget hreadable
  have hafter := a.transfers_after
  have hactions := a.actions_eq
  have houtcome := a.outcome_eq
  rw [hconnected, hid, hnext] at hafter hactions houtcome
  have hframe : a.actions = frame.toList.map .send := by
    rw [hactions]
    split <;> rfl
  refine ⟨⟨hconnected, hreadable, ?_, ?_, ?_, ?_, ?_⟩, ?_⟩
  · intro h
    obtain ⟨built, rfl, hcarries⟩ := hsome h
    exact ⟨built, hframe, hcarries⟩
  · intro hempty
    rw [hframe, hnone hempty]
    rfl
  · intro h htells
    exact Shipment.bytes_reading h htells (hreadable h)
  · rw [houtcome]
    split <;> rfl
  · refine reports_of_append ?_
    rw [hafter]
    by_cases hlast : k + 1 = s.turns
    · rw [if_pos hlast, if_pos hlast]
      exact Transfers.reports_report (by exact hlistening) s.id true path
    · rw [if_neg hlast, if_neg hlast]
      exact (List.append_nil _).symm
  · rw [hafter]
    by_cases hlast : k + 1 = s.turns
    · rw [if_pos hlast, if_pos hlast, Transfers.get?_report]
      exact Transfers.get?_set_self _ _ _
    · rw [if_neg hlast, if_neg hlast]
      exact Transfers.get?_set_self _ _ _

theorem fails_of_hindered {error : TransferError} (hhindered : a.Hindered s path number k error) :
    a.Fails s path number k ∧ a.after.transfers.get? s.id = none := by
  obtain ⟨pool, hnext⟩ : ∃ pool,
      a.before.transfers.sendNextFrom a.connected a.reader s.id =
        (({ a.before.transfers with pool }.remove s.id).report s.id false path, none,
          .error error) := by
    cases hhindered with
    | disconnected hconnected =>
        rw [hconnected]
        exact ⟨a.before.transfers.pool,
          Transfers.sendNextFrom_of_disconnected hget rfl rfl a.reader⟩
    | unreadable hconnected hsome hfailure =>
        rw [hconnected]
        exact Shipment.sendNextFrom_of_failure hsome hget hfailure
  have hafter := a.transfers_after
  have hactions := a.actions_eq
  have houtcome := a.outcome_eq
  rw [hid, hnext] at hafter hactions houtcome
  refine ⟨⟨⟨error, hhindered, houtcome⟩, hactions, ?_⟩, ?_⟩
  · refine reports_of_append ?_
    rw [hafter]
    exact Transfers.reports_report (by exact hlistening) s.id false path
  · rw [hafter, Transfers.get?_report, Transfers.get?_remove_self]

end Step

/-- A chunk can be sent or there is something in the way. -/
theorem readable_or_hindered (s : Shipment) (path : Path) (number k : Nat) (a : Attempt) :
    (a.connected = true ∧
        (k < s.chunksTotal.toNat → (a.reading s number k).failure = none)) ∨
      ∃ error, a.Hindered s path number k error := by
  cases hconnected : a.connected with
  | false => exact .inr ⟨_, .disconnected hconnected⟩
  | true =>
      by_cases h : k < s.chunksTotal.toNat
      · cases hfailure : (a.reading s number k).failure with
        | none => exact .inl ⟨rfl, fun _ => rfl⟩
        | some e => exact .inr ⟨_, .unreadable hconnected h hfailure⟩
      · exact .inl ⟨rfl, fun hlt => absurd hlt h⟩

end Attempt

/-! ## Whole runs -/

namespace Endpoint

variable {happening : Happening} {e : Endpoint}

theorem react_of_attempt {a : Attempt} (h : attempt? happening e = some a) :
    a.before.transfers = e.transfers ∧ react happening e = (a.after, a.actions) := by
  cases happening with
  | accepted id => cases h
  | due place connected reader =>
      obtain ⟨d, hdue, rfl⟩ := Option.map_eq_some_iff.mp h
      exact ⟨rfl, sendDueFrom_of_some hdue reader connected⟩
  | called id connected reader =>
      obtain rfl := Option.some.inj h
      exact ⟨rfl, rfl⟩
  | disk disk => cases h

theorem react_of_no_attempt (h : attempt? happening e = none) :
    (react happening e).1.transfers = e.transfers ∧ (react happening e).2 = [] := by
  cases happening with
  | accepted id =>
      have hresponse : react (.accepted id) e = (e.startSending id, []) := packet_response id e
      rw [hresponse]
      exact ⟨rfl, rfl⟩
  | due place connected reader =>
      have hnone : react (.due place connected reader) e = (e, []) :=
        sendDueFrom_of_none (Option.map_eq_none_iff.mp h) reader connected
      rw [hnone]
      exact ⟨rfl, rfl⟩
  | called id connected reader => cases h
  | disk disk => exact ⟨rfl, rfl⟩

theorem closes_react (happening : Happening) (e : Endpoint) :
    Action.closes (react happening e).2 = false := by
  cases hattempt : attempt? happening e with
  | none =>
      rw [(react_of_no_attempt hattempt).2]
      rfl
  | some a =>
      rw [(react_of_attempt hattempt).2]
      exact a.closes_actions

/-- The next attempt for a transfer is made now, or nothing is changed about
the transfer. -/
theorem attemptsFor_cons (id : TransferId) (happening : Happening) (happenings : List Happening)
    (e : Endpoint) :
    ((react happening e).1.transfers.get? id = e.transfers.get? id ∧
        (react happening e).1.transfers.listening = e.transfers.listening ∧
        attemptsFor id (happening :: happenings) e =
          attemptsFor id happenings (react happening e).1) ∨
      ∃ a : Attempt, a.id = id ∧ a.before.transfers = e.transfers ∧
        attemptsFor id (happening :: happenings) e = a :: attemptsFor id happenings a.after := by
  have hfirst : attemptsFor id (happening :: happenings) e =
      ((attempt? happening e).toList ++ attempts happenings (react happening e).1).filter
        fun a => a.id = id := rfl
  rw [hfirst]
  cases hattempt : attempt? happening e with
  | none =>
      obtain ⟨hsame, -⟩ := react_of_no_attempt hattempt
      rw [hsame]
      exact Or.inl ⟨rfl, rfl, rfl⟩
  | some a =>
      obtain ⟨hbefore, hreact⟩ := react_of_attempt hattempt
      rw [hreact, Option.toList_some, List.singleton_append]
      by_cases hid : a.id = id
      · refine Or.inr ⟨a, hid, hbefore, ?_⟩
        exact List.filter_cons_of_pos (decide_eq_true hid)
      · refine Or.inl ⟨?_, ?_, ?_⟩
        · rw [a.get?_after_of_ne (Ne.symm hid), hbefore]
        · rw [a.listening_after, hbefore]
        · exact List.filter_cons_of_neg (by rwa [decide_eq_true_iff])

theorem accounted (happenings : List Happening) (e : Endpoint) : Accounted happenings e := by
  refine ⟨?_, ?_, fun a _ frame h => a.own_frame h, fun a _ => a.reports_after.2⟩
  · induction happenings generalizing e with
    | nil => rfl
    | cons happening happenings ih =>
        rw [Reaction.actions_of_open react happenings (closes_react happening e), ih, attempts,
          List.flatMap_append]
        congr 1
        cases hattempt : attempt? happening e with
        | none => exact (react_of_no_attempt hattempt).2
        | some a =>
            rw [(react_of_attempt hattempt).2]
            exact (List.flatMap_singleton _ _).symm
  · induction happenings generalizing e with
    | nil => exact (List.append_nil _).symm
    | cons happening happenings ih =>
        rw [Reaction.after_of_open react happenings (closes_react happening e), ih, attempts,
          List.flatMap_append, ← List.append_assoc]
        congr 1
        cases hattempt : attempt? happening e with
        | none =>
            rw [(react_of_no_attempt hattempt).1]
            exact (List.append_nil _).symm
        | some a =>
            obtain ⟨hbefore, hreact⟩ := react_of_attempt hattempt
            rw [hreact, a.reports_after.1, hbefore, Option.toList_some, List.flatMap_singleton]

/-- As long as calls for a transfer are answered without any effect, all are. -/
theorem idle_of_get? {id : TransferId} {standing : Option Record}
    {outcome : Except TransferError Progress}
    (hidle : ∀ (e : Endpoint) (connected : Bool) (reader : FileReader),
      e.transfers.get? id = standing → e.sendChunkFrom reader id connected = (e, [], outcome))
    (happenings : List Happening) {e : Endpoint} (hget : e.transfers.get? id = standing) :
    ∀ a ∈ attemptsFor id happenings e, a.Idle outcome := by
  induction happenings generalizing e with
  | nil => exact fun _ hmem => absurd hmem List.not_mem_nil
  | cons happening happenings ih =>
      rcases attemptsFor_cons id happening happenings e with
        ⟨hsame, -, heq⟩ | ⟨a, hid, hbefore, heq⟩
      · rw [heq]
        exact ih (hsame.trans hget)
      · rw [← hbefore] at hget
        have hcall := hidle a.before a.connected a.reader hget
        rw [← hid] at hcall
        have hnow := Attempt.idle_of_sendChunkFrom hcall
        rw [heq]
        intro b hmem
        rcases List.mem_cons.mp hmem with rfl | hrest
        · exact hnow
        · exact ih (by rw [hnow.after]; exact hget) b hrest

end Endpoint

namespace Shipment

variable {s : Shipment} {path : Path} {number k : Nat}

/-- Between the attempts for a file nothing is changed about it, so that each
continues where the one before left off. -/
theorem course_of_outgoing (happenings : List Happening) {e : Endpoint}
    (hlistening : e.transfers.listening = true) (hturn : k < s.turns)
    (hget : e.transfers.get? s.id = some (s.outgoing path number k)) :
    s.Course path number k (e.attemptsFor s.id happenings) := by
  induction happenings generalizing k e with
  | nil => exact .pending hturn
  | cons happening happenings ih =>
      rcases Endpoint.attemptsFor_cons s.id happening happenings e with
        ⟨hsame, hlistens, heq⟩ | ⟨a, hid, hbefore, heq⟩
      · rw [heq]
        exact ih (hlistens.trans hlistening) hturn (hsame.trans hget)
      · rw [← hbefore] at hlistening hget
        rw [heq]
        rcases a.readable_or_hindered s path number k with
          ⟨hconnected, hreadable⟩ | ⟨error, hhindered⟩
        · obtain ⟨hsends, hnext⟩ :=
            Attempt.sends_of_readable hid hlistening hget hturn hconnected hreadable
          by_cases hlast : k + 1 = s.turns
          · rw [if_pos hlast] at hnext
            refine .last hlast hsends (Endpoint.idle_of_get? ?_ happenings hnext)
            intro e' connected reader hended
            exact Endpoint.sendChunkFrom_of_unmoved
              (Transfers.sendNextFrom_of_completed hended rfl rfl connected reader) nofun
          · rw [if_neg hlast] at hnext
            have hmore : k + 1 < s.turns := Nat.lt_of_le_of_ne hturn hlast
            exact .more hmore hsends (ih (a.listening_after.trans hlistening) hmore hnext)
        · obtain ⟨hfails, hgone⟩ := Attempt.fails_of_hindered hid hlistening hget hhindered
          refine .failed hturn hfails (Endpoint.idle_of_get? ?_ happenings hgone)
          intro e' connected reader hnone
          exact Endpoint.sendChunkFrom_of_unmoved
            (Transfers.sendNextFrom_of_none hnone connected reader) nofun

end Shipment

/-! ## Announced files -/

theorem Endpoint.exists_shipment_of_sendFile {e : Endpoint} {path : Path} {requested : UInt32}
    {id : TransferId} (h : (e.sendFile path requested).2.2 = .ok id) :
    ∃ (s : Shipment) (number : Nat),
      s.id = id ∧ s.chunkSize = Transfers.effectiveChunkSize requested ∧
        e.disk.stat path = .ok (.file number) ∧ s.source = (e.disk.content number).toBytes ∧
        (e.sendFile path requested).1.transfers.listening = e.transfers.listening ∧
        (e.sendFile path requested).1.transfers.get? id = some (s.outgoing path number 0) := by
  have hafter : (e.sendFile path requested).1.transfers =
      (e.transfers.send e.disk path requested).1 := by
    unfold sendFile
    split <;> simp only [*]
  obtain ⟨frame, hsend⟩ :
      ∃ frame, (e.transfers.send e.disk path requested).2 = .ok (id, frame) := by
    unfold sendFile at h
    split at h
    next other frame heq =>
        cases h
        exact ⟨frame, by rw [heq]⟩
    · cases h
  obtain ⟨number, name, size, chunksTotal, hopen, hcount, rfl, heq⟩ :=
    Transfers.source_of_send hsend
  obtain ⟨hstat, rfl⟩ := Transfers.stat_of_openSource hopen
  let s : Shipment :=
    { Cutting.ofChunkCount (e.disk.content number).toBytes requested chunksTotal hcount with
      id := e.transfers.nextId
      chunkSize_le := Cutting.effectiveChunkSize_le requested }
  refine ⟨s, number, rfl, rfl, hstat, rfl, ?_, ?_⟩
  · rw [hafter, heq]
    rfl
  · rw [hafter, heq, Transfers.get?_add_self, Shipment.outgoing, s.moved_zero]
    rfl

/-- A file is sent by whoever calls for its chunks, once and in order, however
it is read. -/
theorem streams_once {e : Endpoint} {path : Path} {requested : UInt32} {id : TransferId}
    (hlistening : e.transfers.listening = true)
    (hannounced : (e.sendFile path requested).2.2 = .ok id) :
    (∃ (s : Shipment) (number : Nat),
      s.id = id ∧ s.chunkSize = (if requested = 0 then 4096 else min requested.toNat 5983) ∧
        e.disk.stat path = .ok (.file number) ∧ s.source = (e.disk.content number).toBytes ∧
        ∀ happenings : List Happening,
          s.Course path number 0 ((e.sendFile path requested).1.attemptsFor id happenings) ∧
            Accounted happenings (e.sendFile path requested).1) ∧
      ∀ (e : Endpoint) (id : TransferId) (connected : Bool) (reader : FileReader),
        (∀ record, e.transfers.get? id = some record → record.direction ≠ .sending) →
        e.sendChunkFrom reader id connected = (e, [], .error
          (if (e.transfers.get? id).isSome then .wrongDirection id else .unknownTransfer id)) := by
  refine ⟨?_, fun e id connected reader h =>
    Endpoint.sendChunkFrom_of_not_sending h connected reader⟩
  obtain ⟨s, number, hid, hsize, hstat, hsource, hlistens, hget⟩ :=
    Endpoint.exists_shipment_of_sendFile hannounced
  refine ⟨s, number, hid, hsize, hstat, hsource, fun happenings => ⟨?_, Endpoint.accounted _ _⟩⟩
  have hturn : 0 < s.turns := Nat.lt_of_lt_of_le Nat.zero_lt_one (Nat.le_max_right _ _)
  subst hid
  exact Shipment.course_of_outgoing happenings (hlistens.trans hlistening) hturn hget

def tenByteSender : Endpoint :=
  unused (Disk.empty.store (.ofString "a") [1, 2, 3, 4, 5, 6, 7, 8, 9, 10])

def twoChains (reader : FileReader) : List Happening :=
  [.accepted 1, .accepted 1, .due 0 true reader, .due 0 true reader, .due 0 true reader,
    .due 0 true reader]

/-- The chains send the file in chunks of four bytes, as it is on the disk. -/
theorem streams_once_twoChains :
    (tenByteSender.sendFile (.ofString "a") 4).2.2 = .ok 1 ∧
      tenByteSender.disk.Tells tenByteSender.disk.reader ∧
      ∃ s : Shipment, s.source = [1, 2, 3, 4, 5, 6, 7, 8, 9, 10] ∧ s.chunkSize = 4 ∧
        s.Course (.ofString "a") 0 0 ((tenByteSender.sendFile (.ofString "a") 4).1.attemptsFor 1
          (twoChains tenByteSender.disk.reader)) := by
  have hannounced : (tenByteSender.sendFile (.ofString "a") 4).2.2 = .ok 1 := by
    have hopen : Transfers.openSource tenByteSender.disk (.ofString "a") = .ok (0, "a", 10) := rfl
    have hcount : Transfers.chunkCount 10 (Transfers.effectiveChunkSize 4) = .ok 3 := rfl
    obtain ⟨frame, hframe⟩ := (Transfers.requestOf "a" 10 (Transfers.effectiveChunkSize 4) 3
      tenByteSender.transfers.nextId).exists_frame
    have hsend := Transfers.send_of_openSource tenByteSender.transfers hopen hcount hframe
    rw [Endpoint.sendFile, hsend]
    rfl
  obtain ⟨s, number, -, hsize, hstat, hsource, hruns⟩ := (streams_once rfl hannounced).1
  have hzero : tenByteSender.disk.stat (.ofString "a") = .ok (.file 0) := rfl
  cases hzero.symm.trans hstat
  exact ⟨hannounced, Disk.tells_reader _, s, hsource, hsize, (hruns _).1⟩

end Transfer

end SessionEngine

import SessionEngine.Proofs.Connection.Streams
import SessionEngine.Proofs.Stress.Message
import SessionEngine.Stress.Handler

/-!
# What becomes of a load test

A run is a start frame and one data frame for each message. The receiver
counts the messages and answers the one that makes the run complete
(`counted`, `exists_settled_run`). A run of no messages is never complete,
because only a message can make it so: it has no answer.

Between the two sides the bytes may be cut anywhere. What each side has been
shown is a beginning of what the other has sent (`Running`), which every
delivery keeps (`Running.deliver`, `Running.deliver_back`), and when nothing
is under way any more it is all of it (`Running.settled`).
-/

namespace SessionEngine

namespace Stress

/-! ## The frames of a run -/

/-- The longest frame of a load test: a message with the longest payload. -/
def maxFrame : Nat := 4012

def startFrame (start : Start) : Bytes := (Frame.build? startId start.body).getD []

/-- What identifies a message of a run. -/
def message (clock : Clock) (i : Nat) : Data :=
  ⟨UInt32.ofNat i, clockMs (clock.reading (clock.ticks + i))⟩

def dataFrame (start : Start) (clock : Clock) (i : Nat) : Bytes :=
  (Frame.build? dataId ((message clock i).body start.payloadLength)).getD []

def opening (start : Start) (clock : Clock) (i : Nat) : List Bytes :=
  startFrame start :: (List.range i).map (dataFrame start clock)

section Frames

variable (start : Start) (clock : Clock) (i : Nat)

theorem length_data_le : Header.length + ((message clock i).body start.payloadLength).length ≤
    maxFrame := by
  have hpayload : min start.payloadLength maxPayload ≤ 4000 := Nat.min_le_right _ _
  rw [Data.length_body, Header.length, Data.headLength, maxFrame]
  omega

theorem build?_startFrame : Frame.build? startId start.body = some (startFrame start) := by
  have hfit : Header.length + start.body.length ≤ Frame.maxLength := by
    rw [Start.length_body]
    decide
  obtain ⟨frame, hframe⟩ := Frame.exists_build? startId hfit
  rw [startFrame, hframe, Option.getD_some]

theorem build?_dataFrame :
    Frame.build? dataId ((message clock i).body start.payloadLength) =
      some (dataFrame start clock i) := by
  have hfit := Nat.le_trans (length_data_le start clock i) (by decide : maxFrame ≤ Frame.maxLength)
  obtain ⟨frame, hframe⟩ := Frame.exists_build? dataId hfit
  rw [dataFrame, hframe, Option.getD_some]

theorem run_eq_opening : run start clock = opening start clock start.messageCount.toNat := by
  have hdata : (fun i => Frame.build? dataId ((Data.mk (UInt32.ofNat i)
      (clockMs (clock.reading (clock.ticks + i)))).body start.payloadLength)) =
        some ∘ dataFrame start clock :=
    funext fun i => build?_dataFrame start clock i
  rw [run, build?_startFrame, hdata, List.filterMap_eq_map]
  rfl

theorem opening_succ :
    opening start clock (i + 1) = opening start clock i ++ [dataFrame start clock i] := by
  rw [opening, opening, List.range_succ, List.map_append, List.cons_append]
  rfl

theorem fitIn_opening : Frame.FitIn maxFrame (opening start clock i) := by
  intro frame hmem
  rcases List.mem_cons.mp hmem with rfl | hdata
  · have hshort : Header.length + start.body.length ≤ maxFrame := by
      rw [Start.length_body]
      decide
    exact Frame.fitIn_of_build? (build?_startFrame start) hshort _ List.mem_cons_self
  · obtain ⟨j, -, rfl⟩ := List.mem_map.mp hdata
    exact Frame.fitIn_of_build? (build?_dataFrame start clock j) (length_data_le start clock j) _
      List.mem_cons_self

end Frames

/-! ## The receiver -/

namespace Receiver

theorem handler_packet : handler.packet = packet := rfl

theorem packet_startFrame (start : Start) (r : Receiver) :
    handler.packet (startFrame start) r =
      ({ r with stats := Stats.start start.messageCount }, []) := by
  have hbuild := build?_startFrame start
  rw [handler_packet, packet, accept, Frame.body_of_build? hbuild (Nat.zero_le _)]
  dsimp only
  rw [if_pos rfl, Start.decode_of_build? hbuild]
  rfl

theorem packet_dataFrame (start : Start) (clock : Clock) (i : Nat) (r : Receiver) :
    handler.packet (dataFrame start clock i) r =
      r.count (message clock i) (min start.payloadLength maxPayload) := by
  have hbuild := build?_dataFrame start clock i
  rw [handler_packet, packet, accept, Frame.body_of_build? hbuild (Nat.zero_le _)]
  dsimp only
  rw [if_neg (by decide), if_pos rfl, Data.decode_of_build? hbuild]
  rfl

theorem count_of_incomplete {data : Data} {payloadLength : Nat} {r : Receiver}
    (h : (Stats.record data payloadLength r.clock.now r.stats).isComplete = false) :
    r.count data payloadLength =
      (⟨Stats.record data payloadLength r.clock.now r.stats, r.clock.tick⟩, []) := by
  rw [count]
  simp only [h, Bool.false_eq_true, if_false]

theorem count_of_complete {data : Data} {payloadLength : Nat} {r : Receiver}
    (h : (Stats.record data payloadLength r.clock.now r.stats).isComplete = true) :
    r.count data payloadLength =
      (⟨Stats.idle, r.clock.tick⟩,
        (Frame.build? resultId (Stats.record data payloadLength r.clock.now
          r.stats).result.body).toList.map .send) := by
  rw [count]
  simp only [h, if_true]

end Receiver

@[simp] theorem Stats.expected_record (data : Data) (payloadLength : Nat) (now : Instant)
    (s : Stats) : (record data payloadLength now s).expected = s.expected := rfl

@[simp] theorem Stats.received_record (data : Data) (payloadLength : Nat) (now : Instant)
    (s : Stats) : (record data payloadLength now s).received = s.received + 1 := rfl

namespace Receiver

/-- The receiver is in a run of `expected` messages and has counted some. -/
structure Counting (expected : UInt32) (received : Nat) (r : Receiver) : Prop where
  expected_eq : r.stats.expected = expected
  received_eq : r.stats.received = received

theorem Counting.record {expected : UInt32} {received : Nat} {r : Receiver}
    (h : r.Counting expected received) (data : Data) (payloadLength : Nat) :
    (Stats.record data payloadLength r.clock.now r.stats).isComplete =
      (0 < expected && expected.toNat ≤ received + 1) := by
  rw [Stats.isComplete, Stats.expected_record, Stats.received_record, h.expected_eq,
    h.received_eq]

/-- A message that is not the last. -/
theorem Counting.count {expected : UInt32} {received : Nat} {r : Receiver}
    (h : r.Counting expected received) (hmore : received + 1 < expected.toNat) (data : Data)
    (payloadLength : Nat) :
    (r.count data payloadLength).2 = [] ∧
      (r.count data payloadLength).1.Counting expected (received + 1) := by
  have hopen : (Stats.record data payloadLength r.clock.now r.stats).isComplete = false := by
    rw [h.record, Bool.and_eq_false_iff]
    exact Or.inr (decide_eq_false (by omega))
  rw [count_of_incomplete hopen]
  refine ⟨rfl, ?_, ?_⟩
  · rw [Stats.expected_record, h.expected_eq]
  · rw [Stats.received_record, h.received_eq]

/-- The message that makes the run complete. -/
theorem Counting.count_last {expected : UInt32} {received : Nat} {r : Receiver}
    (h : r.Counting expected received) (hlast : received + 1 = expected.toNat) (data : Data)
    (payloadLength : Nat) :
    ∃ result : Result, result.total = expected ∧ result.received = expected ∧ result.lost = 0 ∧
      (r.count data payloadLength).2 =
        (Frame.build? resultId result.body).toList.map .send := by
  have hcomplete : (Stats.record data payloadLength r.clock.now r.stats).isComplete = true := by
    rw [h.record, Bool.and_eq_true, decide_eq_true_eq, decide_eq_true_eq]
    refine ⟨?_, Nat.le_of_eq hlast.symm⟩
    rw [UInt32.lt_iff_toNat_lt, ← hlast]
    exact Nat.succ_pos received
  refine ⟨(Stats.record data payloadLength r.clock.now r.stats).result, ?_, ?_, ?_, ?_⟩
  · rw [Stats.result, Stats.expected_record, h.expected_eq]
  · rw [Stats.result, Stats.received_record, h.received_eq, hlast]
    exact UInt32.ofNat_toNat
  · rw [Stats.result, Stats.received_record, Stats.expected_record, h.received_eq, hlast,
      h.expected_eq, Nat.sub_self]
    rfl
  · rw [count_of_complete hcomplete]

end Receiver

/-- Until its last message a run is only counted. -/
theorem counted (start : Start) (clock : Clock) (r : Receiver) {i : Nat}
    (hi : i = 0 ∨ i < start.messageCount.toNat) :
    Reaction.closed Receiver.handler.packet (opening start clock i) r = false ∧
      Reaction.actions Receiver.handler.packet (opening start clock i) r = [] ∧
      (Reaction.after Receiver.handler.packet (opening start clock i) r).Counting
        start.messageCount i := by
  induction i with
  | zero =>
      have hstart := Receiver.packet_startFrame start r
      have hopen : Action.closes (Receiver.handler.packet (startFrame start) r).2 = false := by
        rw [hstart]
        rfl
      refine ⟨?_, ?_, ?_⟩
      · rw [opening, Reaction.closed_cons, hopen]
        rfl
      · rw [opening, Reaction.actions_of_open _ _ hopen, hstart]
        rfl
      · rw [opening, Reaction.after_of_open _ _ hopen, hstart]
        exact ⟨rfl, rfl⟩
  | succ i ih =>
      have hlt : i + 1 < start.messageCount.toNat := by omega
      obtain ⟨hopen, hactions, hcounting⟩ := ih (by omega)
      have hpacket := Receiver.packet_dataFrame start clock i
        (Reaction.after Receiver.handler.packet (opening start clock i) r)
      obtain ⟨hsilent, hnext⟩ := hcounting.count hlt (message clock i)
        (min start.payloadLength maxPayload)
      rw [← hpacket] at hsilent hnext
      have hnow : Action.closes (Receiver.handler.packet (dataFrame start clock i)
          (Reaction.after Receiver.handler.packet (opening start clock i) r)).2 = false := by
        rw [hsilent]
        rfl
      rw [opening_succ]
      refine ⟨?_, ?_, ?_⟩
      · rw [Reaction.closed_append, hopen, Reaction.closed_cons, hnow]
        rfl
      · rw [Reaction.actions_append hopen, hactions, Reaction.actions_of_open _ _ hnow, hsilent]
        rfl
      · rw [Reaction.after_append hopen, Reaction.after_of_open _ _ hnow]
        exact hnext

/-! ## Outcomes -/

/-- How a run of so many messages ends if none is lost: what the receiver sends
and what the client reports. A run of no messages does not end. -/
inductive Settles (messageCount : UInt32) : List Bytes → List Outcome → Prop
  | never (hnone : messageCount = 0) : Settles messageCount [] []
  | result {result : Result} {frame : Bytes} (hsome : messageCount ≠ 0)
      (htotal : result.total = messageCount) (hreceived : result.received = messageCount)
      (hlost : result.lost = 0) (hframe : Frame.build? resultId result.body = some frame) :
      Settles messageCount [frame] [.ok result]

theorem Settles.fitIn {messageCount : UInt32} {replies : List Bytes} {outcomes : List Outcome}
    (h : Settles messageCount replies outcomes) : Frame.FitIn maxFrame replies := by
  cases h with
  | never hnone => exact fun frame hmem => absurd hmem List.not_mem_nil
  | result hsome htotal hreceived hlost hframe =>
      refine Frame.fitIn_of_build? hframe ?_
      rw [Result.length_body]
      decide

/-- What a receiver sends when it is shown a whole run. -/
def answer (start : Start) (clock : Clock) (r : Receiver) : List Bytes :=
  Action.frames (Reaction.actions Receiver.handler.packet (run start clock) r)

/-- The last message of a run is answered with its result. -/
theorem exists_settled_run (start : Start) (clock : Clock) (r : Receiver) :
    Reaction.closed Receiver.handler.packet (run start clock) r = false ∧
      ∃ outcomes, Settles start.messageCount (answer start clock r) outcomes := by
  rw [answer, run_eq_opening]
  by_cases hnone : start.messageCount = 0
  · have hcount : start.messageCount.toNat = 0 := by
      rw [hnone]
      rfl
    rw [hcount]
    obtain ⟨hopen, hactions, -⟩ := counted start clock r (Or.inl rfl)
    refine ⟨hopen, [], ?_⟩
    rw [hactions]
    exact .never hnone
  · have hpos : start.messageCount.toNat ≠ 0 := by
      intro hzero
      exact hnone (UInt32.toNat_inj.mp hzero)
    obtain ⟨last, hlast⟩ := Nat.exists_eq_succ_of_ne_zero hpos
    rw [hlast, opening_succ]
    obtain ⟨hopen, hactions, hcounting⟩ := counted start clock r (Or.inr (by omega : last < _))
    have hpacket := Receiver.packet_dataFrame start clock last
      (Reaction.after Receiver.handler.packet (opening start clock last) r)
    obtain ⟨result, htotal, hreceived, hlost, hanswer⟩ := hcounting.count_last hlast.symm
      (message clock last) (min start.payloadLength maxPayload)
    have hfit : Header.length + result.body.length ≤ Frame.maxLength := by
      rw [Result.length_body]
      decide
    obtain ⟨frame, hframe⟩ := Frame.exists_build? resultId hfit
    rw [← hpacket, hframe] at hanswer
    have hnow : Action.closes (Receiver.handler.packet (dataFrame start clock last)
        (Reaction.after Receiver.handler.packet (opening start clock last) r)).2 = false := by
      rw [hanswer]
      rfl
    refine ⟨?_, [.ok result], ?_⟩
    · rw [Reaction.closed_append, hopen, Reaction.closed_cons, hnow]
      rfl
    · rw [Reaction.actions_append hopen, hactions, Reaction.actions_of_open _ _ hnow, hanswer]
      exact .result hnone htotal hreceived hlost hframe

/-! ## The client -/

namespace Client

theorem actions_packet (frames : List Bytes) (c : Client) :
    Reaction.closed handler.packet frames c = false ∧
      Reaction.actions handler.packet frames c = [] := by
  induction frames generalizing c with
  | nil => exact ⟨rfl, rfl⟩
  | cons frame frames ih =>
      have hopen : Action.closes (handler.packet frame c).2 = false := rfl
      obtain ⟨hclosed, hactions⟩ := ih (handler.packet frame c).1
      refine ⟨?_, ?_⟩
      · rw [Reaction.closed_cons, hopen, hclosed]
        rfl
      · rw [Reaction.actions_of_open _ _ hopen, hactions]
        rfl

end Client

theorem Settles.outcomes_eq {messageCount : UInt32} {replies : List Bytes}
    {outcomes : List Outcome} (h : Settles messageCount replies outcomes) (start : Start)
    (clock : Clock) :
    (Reaction.after Client.handler.packet replies (.new start clock)).outcomes = outcomes := by
  cases h with
  | never hnone => rfl
  | @result result frame hsome htotal hreceived hlost hframe =>
      have hopen : Action.closes (Client.handler.packet frame (.new start clock)).2 = false := rfl
      have hstate : (Client.handler.packet frame (.new start clock)).1 =
          (Client.new start clock).packet frame := rfl
      rw [Reaction.after_of_open _ _ hopen, hstate, Client.packet, Result.decode_of_build? hframe]
      rfl

/-! ## Between the two sides -/

/-- A client and a receiver whose connection has just opened. -/
def meeting (start : Start) (clock clock' : Clock) (nearLength farLength : Nat) :
    Connection Client Receiver where
  near := Side.opened Client.handler.session nearLength (.new start clock)
  far := Side.opened Receiver.handler.session farLength (.new clock')

/-- The run is on its way: what the client has heard and what is ahead of it,
and the same of the receiver. -/
structure Running (start : Start) (clock clock' : Clock) (heard ahead heard' ahead' : List Bytes)
    (c : Connection Client Receiver) : Prop where
  near_capacity : maxFrame ≤ c.near.session.buffer.capacity
  far_capacity : maxFrame ≤ c.far.session.buffer.capacity
  talks : c.Talks Client.handler Receiver.handler (.new start clock) (.new clock')
    (run start clock) [] heard ahead heard' ahead'

theorem running_meeting (start : Start) (clock clock' : Clock) {nearLength farLength : Nat}
    (hnear : maxFrame ≤ (ReceiveBuffer.empty nearLength).capacity)
    (hfar : maxFrame ≤ (ReceiveBuffer.empty farLength).capacity) :
    Running start clock clock' [] [] [] (run start clock)
      (meeting start clock clock' nearLength farLength) := by
  have hpos : ∀ readLength, maxFrame ≤ (ReceiveBuffer.empty readLength).capacity →
      0 < readLength := by
    intro readLength hcapacity
    exact Nat.pos_of_mul_pos_left (Nat.lt_of_lt_of_le (by decide) hcapacity)
  obtain ⟨hclient, -, hclientCapacity⟩ :=
    Side.shown_opened (h := Client.handler) (s := .new start clock) (hpos _ hnear) rfl
      (Action.closes_map_send _)
  obtain ⟨hreceiver, -, hreceiverCapacity⟩ :=
    Side.shown_opened (h := Receiver.handler) (s := .new clock') (hpos _ hfar) rfl rfl
  have hsent := hclient.sent_eq
  rw [Action.frames_map_send] at hclient hsent
  have hrun : (meeting start clock clock' nearLength farLength).near.session.sent =
      run start clock := hsent.trans (List.append_nil _)
  have hnothing : (meeting start clock clock' nearLength farLength).far.session.sent = [] :=
    hreceiver.sent_eq
  refine ⟨?_, ?_, ⟨Nat.zero_le _, Nat.zero_le _, hnothing.symm, hrun.symm, ?_, ?_⟩⟩
  · exact Nat.le_trans hnear (Nat.le_of_eq hclientCapacity.symm)
  · exact Nat.le_trans hfar (Nat.le_of_eq hreceiverCapacity.symm)
  · have hback : (meeting start clock clock' nearLength farLength).swap.underWay = [] := by
      show (meeting start clock clock' nearLength farLength).far.session.sent.flatten.drop _ = []
      rw [hnothing]
      exact List.drop_nil
    rw [hback]
    exact hclient
  · have hunderWay : (meeting start clock clock' nearLength farLength).underWay =
        (run start clock).flatten := by
      show (meeting start clock clock' nearLength farLength).near.session.sent.flatten.drop 0 = _
      rw [hrun]
      rfl
    rw [hunderWay]
    exact hreceiver.append (run start clock)

section Running

variable {start : Start} {clock clock' : Clock} {heard ahead heard' ahead' : List Bytes}
  {c c' : Connection Client Receiver} {n : Nat}

theorem Running.sent_eq (h : Running start clock clock' heard ahead heard' ahead' c) :
    c.near.session.sent = run start clock := by
  have hsent := h.talks.near_shown.sent_eq
  rw [(Client.actions_packet heard _).2] at hsent
  exact hsent.trans (List.append_nil _)

theorem Running.run_eq (h : Running start clock clock' heard ahead heard' ahead' c) :
    heard' ++ ahead' = run start clock := h.talks.far_heard.trans h.sent_eq

theorem Running.fitIn_ahead' (h : Running start clock clock' heard ahead heard' ahead' c) :
    Frame.FitIn maxFrame ahead' := by
  have hrun := fitIn_opening start clock start.messageCount.toNat
  rw [← run_eq_opening, ← h.run_eq] at hrun
  exact hrun.of_append_right

theorem Running.closed_eq_false (h : Running start clock clock' heard ahead heard' ahead' c) :
    Reaction.closed Receiver.handler.packet (heard' ++ ahead') (.new clock') = false := by
  rw [h.run_eq]
  exact (exists_settled_run start clock (.new clock')).1

/-- What the receiver has sent is the beginning of its whole answer. -/
theorem Running.answer_eq (h : Running start clock clock' heard ahead heard' ahead' c) :
    answer start clock (.new clock') = c.far.session.sent ++
      Action.frames (Reaction.actions Receiver.handler.packet ahead'
        (Reaction.after Receiver.handler.packet heard' (.new clock'))) := by
  have hopen := h.closed_eq_false
  rw [Reaction.closed_append, Bool.or_eq_false_iff] at hopen
  have hquiet : Action.closes (Reaction.actions Receiver.handler.packet heard' (.new clock')) =
      false := by
    rw [Reaction.closes_actions]
    exact hopen.1
  rw [answer, ← h.run_eq, Reaction.actions_append hopen.1, Action.frames_append _ hquiet,
    h.talks.far_shown.sent_eq]
  rfl

theorem Running.fitIn_ahead (h : Running start clock clock' heard ahead heard' ahead' c) :
    Frame.FitIn maxFrame ahead := by
  obtain ⟨-, outcomes, hsettles⟩ := exists_settled_run start clock (.new clock')
  have hfit := hsettles.fitIn
  rw [h.answer_eq, ← h.talks.near_heard, List.append_assoc] at hfit
  intro frame hmem
  exact hfit frame (List.mem_append_right _ (List.mem_append_left _ hmem))

/-- How many bytes are still to be delivered at most. -/
def outstanding (start : Start) (clock clock' : Clock) (c : Connection Client Receiver) : Nat :=
  c.underWay.length + ((answer start clock (.new clock')).flatten.length - c.near.taken)

theorem Running.deliver (h : Running start clock clock' heard ahead heard' ahead' c)
    (hdeliver : c.deliver? n = some c') :
    ∃ ahead₁ heard₁ ahead₁', Running start clock clock' heard ahead₁ heard₁ ahead₁' c' ∧
      outstanding start clock clock' c' < outstanding start clock clock' c := by
  obtain ⟨now, later, -, hnear, htalks, hcapacity, hless, -⟩ :=
    h.talks.deliver hdeliver (h.fitIn_ahead'.mono h.far_capacity) h.closed_eq_false
  refine ⟨_, _, _, ⟨?_, ?_, htalks⟩, ?_⟩
  · rw [hnear]
    exact h.near_capacity
  · rw [hcapacity]
    exact h.far_capacity
  · rw [outstanding, outstanding, hnear]
    omega

theorem Running.deliver_back (h : Running start clock clock' heard ahead heard' ahead' c)
    {back : Connection Receiver Client} (hdeliver : c.swap.deliver? n = some back) :
    ∃ heard₁ ahead₁, Running start clock clock' heard₁ ahead₁ heard' ahead' back.swap ∧
      outstanding start clock clock' back.swap < outstanding start clock clock' c := by
  have hopen := (Client.actions_packet (heard ++ ahead) (.new start clock)).1
  obtain ⟨now, later, -, hfar, htalks, hcapacity, -, htaken⟩ :=
    h.talks.swap.deliver hdeliver (h.fitIn_ahead.mono h.near_capacity) hopen
  rw [(Client.actions_packet now _).2, Action.frames, List.append_nil] at htalks
  have hafter : Running start clock clock' (heard ++ now) later heard' ahead' back.swap := by
    refine ⟨?_, ?_, htalks.swap⟩
    · show maxFrame ≤ back.far.session.buffer.capacity
      rw [hcapacity]
      exact h.near_capacity
    · show maxFrame ≤ back.near.session.buffer.capacity
      rw [hfar]
      exact h.far_capacity
  refine ⟨_, _, hafter, ?_⟩
  -- the client answers nothing, so nothing more is under way to the receiver
  have hsame : back.swap.underWay = c.underWay := by
    show back.far.session.sent.flatten.drop back.near.taken =
      c.near.session.sent.flatten.drop c.far.taken
    have hsent : back.far.session.sent = c.near.session.sent := hafter.sent_eq.trans h.sent_eq.symm
    rw [hsent, hfar]
    rfl
  have hbound : back.far.taken ≤ (answer start clock (.new clock')).flatten.length := by
    have hlength := hafter.talks.near_taken
    rw [hafter.answer_eq, List.flatten_append, List.length_append]
    exact Nat.le_trans hlength (Nat.le_add_right _ _)
  have hmore : c.near.taken < back.far.taken := htaken
  rw [outstanding, outstanding, hsame]
  show c.underWay.length + (_ - back.far.taken) < _
  omega

theorem Running.step (h : Running start clock clock' heard ahead heard' ahead' c)
    {step : Connection.Step Client Receiver} (hdelivery : step.IsDelivery)
    (hstep : c.step? step = some c') :
    ∃ heard₁ ahead₁ heard₁' ahead₁', Running start clock clock' heard₁ ahead₁ heard₁' ahead₁' c' ∧
      outstanding start clock clock' c' < outstanding start clock clock' c := by
  cases step with
  | toFar n =>
      obtain ⟨ahead₁, heard₁', ahead₁', hafter, hless⟩ := h.deliver hstep
      exact ⟨_, _, _, _, hafter, hless⟩
  | toNear n =>
      obtain ⟨back, hback, rfl⟩ := Option.map_eq_some_iff.mp hstep
      obtain ⟨heard₁, ahead₁, hafter, hless⟩ := h.deliver_back hback
      exact ⟨_, _, _, _, hafter, hless⟩
  | near f => cases hdelivery
  | far f => cases hdelivery

theorem Running.run (h : Running start clock clock' heard ahead heard' ahead' c)
    {steps : List (Connection.Step Client Receiver)} (hdeliveries : ∀ step ∈ steps, step.IsDelivery)
    (hrun : c.run? steps = some c') :
    ∃ heard₁ ahead₁ heard₁' ahead₁',
      Running start clock clock' heard₁ ahead₁ heard₁' ahead₁' c' := by
  refine Connection.keeps_run (P := fun c => ∃ heard₁ ahead₁ heard₁' ahead₁',
    Running start clock clock' heard₁ ahead₁ heard₁' ahead₁' c)
    ?_ ⟨_, _, _, _, h⟩ hdeliveries hrun
  rintro c c' step ⟨_, _, _, _, hnow⟩ hdelivery hstep
  obtain ⟨_, _, _, _, hafter, -⟩ := hnow.step hdelivery hstep
  exact ⟨_, _, _, _, hafter⟩

/-- As long as something is under way, it can be delivered. -/
theorem Running.quiet_or_step (h : Running start clock clock' heard ahead heard' ahead' c) :
    c.Quiet ∨ ∃ step c', step.IsDelivery ∧ c.step? step = some c' := by
  by_cases hfar : c.underWay = []
  · by_cases hnear : c.swap.underWay = []
    · exact Or.inl ⟨hfar, hnear⟩
    · obtain ⟨back, hback⟩ := Connection.exists_deliver h.talks.near_shown.room hnear
      refine Or.inr ⟨.toNear 1, back.swap, trivial, ?_⟩
      rw [Connection.step?, hback]
      rfl
  · obtain ⟨c', hdeliver⟩ := Connection.exists_deliver h.talks.far_shown.room hfar
    exact Or.inr ⟨.toFar 1, c', trivial, hdeliver⟩

theorem Running.exists_quiet (h : Running start clock clock' heard ahead heard' ahead' c) :
    ∃ steps c', (∀ step ∈ steps, step.IsDelivery) ∧ c.run? steps = some c' ∧ c'.Quiet := by
  refine Connection.exists_run (P := fun left c => outstanding start clock clock' c = left ∧
    ∃ heard₁ ahead₁ heard₁' ahead₁', Running start clock clock' heard₁ ahead₁ heard₁' ahead₁' c)
    ?_ ⟨rfl, _, _, _, _, h⟩
  rintro _ c ⟨rfl, _, _, _, _, hnow⟩
  rcases hnow.quiet_or_step with hquiet | ⟨step, c₁, hdelivery, hstep⟩
  · exact Or.inl hquiet
  · obtain ⟨_, _, _, _, hafter, hless⟩ := hnow.step hdelivery hstep
    exact Or.inr ⟨step, c₁, hdelivery, hstep, _, hless, rfl, _, _, _, _, hafter⟩

theorem Running.connected (h : Running start clock clock' heard ahead heard' ahead' c) :
    c.near.session.isConnected = true ∧ c.far.session.isConnected = true :=
  ⟨Session.isConnected_eq_true_iff.mpr h.talks.near_shown.ready.phase_eq,
    Session.isConnected_eq_true_iff.mpr h.talks.far_shown.ready.phase_eq⟩

/-- When nothing is under way any more, both sides have seen everything. -/
theorem Running.settled (h : Running start clock clock' heard ahead heard' ahead' c)
    (hquiet : c.Quiet) :
    Settles start.messageCount c.far.session.sent c.near.session.state.outcomes := by
  obtain ⟨-, outcomes, hsettles⟩ := exists_settled_run start clock (.new clock')
  obtain rfl := h.talks.eq_nil hquiet.1 h.fitIn_ahead'
  obtain rfl := h.talks.swap.eq_nil hquiet.2 h.fitIn_ahead
  have hsent := h.answer_eq
  rw [show Reaction.actions Receiver.handler.packet [] _ = [] from rfl, Action.frames,
    List.append_nil] at hsent
  have hheard := h.talks.near_heard
  rw [List.append_nil] at hheard
  rw [hsent] at hsettles
  have houtcomes := hsettles.outcomes_eq start clock
  rw [← hheard, ← h.talks.near_shown.state_eq] at houtcomes
  rw [houtcomes]
  exact hsettles

end Running

/-! ## The whole run -/

/-- However the bytes are cut, both sides stay connected, and what is under
way can be delivered to the end. Then a run of at least one message has one
result, in which all messages are counted and none is lost, and the client has
reported this result and nothing else. A run of no messages has none. -/
theorem settles_run (start : Start) (clock clock' : Clock) {nearLength farLength : Nat}
    (hnear : 4012 ≤ (ReceiveBuffer.empty nearLength).capacity)
    (hfar : 4012 ≤ (ReceiveBuffer.empty farLength).capacity) :
    ∀ steps : List (Connection.Step Client Receiver), (∀ step ∈ steps, step.IsDelivery) →
      ∀ c, (meeting start clock clock' nearLength farLength).run? steps = some c →
        c.near.session.isConnected = true ∧ c.far.session.isConnected = true ∧
        (c.Quiet →
          Settles start.messageCount c.far.session.sent c.near.session.state.outcomes) ∧
        ∃ more c', (∀ step ∈ more, step.IsDelivery) ∧ c.run? more = some c' ∧ c'.Quiet := by
  intro steps hdeliveries c hrun
  obtain ⟨_, _, _, _, hrunning⟩ :=
    (running_meeting start clock clock' hnear hfar).run hdeliveries hrun
  obtain ⟨hclient, hreceiver⟩ := hrunning.connected
  exact ⟨hclient, hreceiver, hrunning.settled, hrunning.exists_quiet⟩

/-- Two messages over memories that just hold the longest frame. -/
theorem settles_run_twoMessages :
    4012 ≤ (ReceiveBuffer.empty 402).capacity ∧
      ∃ steps c, (∀ step ∈ steps, step.IsDelivery) ∧
        (meeting ⟨2, 4000, 0⟩ .still .still 402 402).run? steps = some c ∧ c.Quiet ∧
        Settles 2 c.far.session.sent c.near.session.state.outcomes := by
  have hcapacity : 4012 ≤ (ReceiveBuffer.empty 402).capacity := by decide
  have hsettles := settles_run ⟨2, 4000, 0⟩ .still .still hcapacity hcapacity
  obtain ⟨-, -, -, steps, c, hdeliveries, hrun, hquiet⟩ :=
    hsettles [] (fun _ hmem => absurd hmem List.not_mem_nil) _ rfl
  exact ⟨hcapacity, steps, c, hdeliveries, hrun, hquiet,
    (hsettles steps hdeliveries c hrun).2.2.1 hquiet⟩

/-- Not every run has a result: one of no messages waits for it forever. -/
theorem not_every_run_has_result :
    ¬ ∀ (start : Start) (clock clock' : Clock) (nearLength farLength : Nat),
      4012 ≤ (ReceiveBuffer.empty nearLength).capacity →
      4012 ≤ (ReceiveBuffer.empty farLength).capacity →
      ∀ steps : List (Connection.Step Client Receiver), (∀ step ∈ steps, step.IsDelivery) →
        ∀ c, (meeting start clock clock' nearLength farLength).run? steps = some c → c.Quiet →
          ∃ result frame, Frame.build? resultId result.body = some frame ∧
            c.far.session.sent = [frame] ∧ result.total = start.messageCount ∧
            result.received = start.messageCount ∧ result.lost = 0 ∧
            c.near.session.state.outcomes = [.ok result] := by
  intro hevery
  have hcapacity : 4012 ≤ (ReceiveBuffer.empty 402).capacity := by decide
  have hbegin := running_meeting ⟨0, 0, 0⟩ .still .still hcapacity hcapacity
  obtain ⟨steps, c, hdeliveries, hrun, hquiet⟩ := hbegin.exists_quiet
  obtain ⟨_, _, _, _, hend⟩ := hbegin.run hdeliveries hrun
  obtain ⟨result, frame, -, hsent, -⟩ :=
    hevery ⟨0, 0, 0⟩ .still .still 402 402 hcapacity hcapacity steps hdeliveries c hrun hquiet
  have hsettles := hend.settled hquiet
  rw [hsent] at hsettles
  generalize c.near.session.state.outcomes = outcomes at hsettles
  cases hsettles with
  | result hsome => exact hsome rfl

end Stress

end SessionEngine

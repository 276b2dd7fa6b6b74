import SessionEngine.Proofs.Session.Segmentation
import SessionEngine.Proofs.Session.Transcript
import SessionEngine.Proofs.Stress.Run
import SessionEngine.Proofs.Stress.Statistics

/-!
# What the receiver of a load test answers

A receiver may be shown anything: runs that are begun again before they are
complete, messages that belong to no run, messages after the last. What it
answers to a frame is said here by what came before, without its statistics:
the frame is answered with a result if it is the message that makes the latest
run complete (`Completes`), with the end of the connection if it is no frame of
a load test, and with nothing otherwise (`Answers`).

The statistics are tied to the history by `Tracks`: while the latest run is not
complete they are those of its messages, and afterwards no run is expected. One
lemma for each kind of frame keeps this, and `answers_log` follows the answers
to any number of frames. What a session sends is what its receiver answers, also
if the bytes arrive in any pieces (`Measured`).
-/

namespace SessionEngine

namespace Stress

/-! ## The frames of a load test -/

/-- Long enough for the words of a start frame, and with its id. -/
def IsStart (frame : Bytes) : Prop :=
  Header.length + Start.bodyLength ≤ frame.length ∧ Bytes.word16 2 frame = startId

/-- Long enough for the words of a data frame, and with its id. -/
def IsMessage (frame : Bytes) : Prop :=
  Header.length + Data.headLength ≤ frame.length ∧ Bytes.word16 2 frame = dataId

instance : DecidablePred IsStart := fun _ => inferInstanceAs (Decidable (_ ∧ _))

instance : DecidablePred IsMessage := fun _ => inferInstanceAs (Decidable (_ ∧ _))

/-- A frame that a receiver understands. -/
def Meaningful (frame : Bytes) : Prop := IsStart frame ∨ IsMessage frame

instance : DecidablePred Meaningful := fun _ => inferInstanceAs (Decidable (_ ∨ _))

/-- How many messages a start frame announces. -/
def announced (start : Bytes) : UInt32 := Bytes.word32 4 start

/-- When a message was made, by the clock of its sender. -/
def madeAt (message : Bytes) : UInt32 := Bytes.word32 8 message

theorem IsStart.not_isMessage {frame : Bytes} (h : IsStart frame) : ¬ IsMessage frame := by
  rintro ⟨-, hid⟩
  rw [h.2] at hid
  exact absurd hid (by decide)

/-! ## One frame -/

namespace Receiver

variable {frame : Bytes}

theorem packet_of_isStart (h : IsStart frame) (r : Receiver) :
    handler.packet frame r = ({ r with stats := Stats.start (announced frame) }, []) := by
  obtain ⟨hlength, hid⟩ := h
  rw [handler_packet, packet, accept,
    Frame.body_of_length_le (Nat.le_trans (Nat.le_add_right _ _) hlength)]
  dsimp only
  rw [if_pos hid, Start.decode_of_length_le hlength]
  rfl

/-- The statistics with one more message, which arrives now. -/
def statsWith (frame : Bytes) (r : Receiver) : Stats :=
  Stats.record ⟨Bytes.word32 4 frame, madeAt frame⟩
    (frame.length - (Header.length + Data.headLength)) r.clock.now r.stats

theorem packet_of_isMessage (h : IsMessage frame) (r : Receiver) :
    handler.packet frame r = r.count ⟨Bytes.word32 4 frame, madeAt frame⟩
      (frame.length - (Header.length + Data.headLength)) := by
  obtain ⟨hlength, hid⟩ := h
  rw [handler_packet, packet, accept,
    Frame.body_of_length_le (Nat.le_trans (Nat.le_add_right _ _) hlength)]
  dsimp only
  rw [if_neg (by rw [hid]; decide), if_pos hid, Data.decode_of_length_le hlength]
  rfl

theorem packet_of_complete (h : IsMessage frame) {r : Receiver}
    (hcomplete : (r.statsWith frame).isComplete = true) :
    handler.packet frame r = (⟨Stats.idle, r.clock.tick⟩,
      (Frame.build? resultId (r.statsWith frame).result.body).toList.map .send) :=
  (packet_of_isMessage h r).trans (count_of_complete hcomplete)

theorem packet_of_incomplete (h : IsMessage frame) {r : Receiver}
    (hincomplete : (r.statsWith frame).isComplete = false) :
    handler.packet frame r = (⟨r.statsWith frame, r.clock.tick⟩, []) :=
  (packet_of_isMessage h r).trans (count_of_incomplete hincomplete)

/-- Any other frame is refused, and what was measured stays. -/
theorem packet_of_not_meaningful (h : ¬ Meaningful frame) (r : Receiver) :
    handler.packet frame r = (r, [.disconnect]) := by
  suffices hrefused : ∃ error, r.accept frame = .error error by
    obtain ⟨error, herror⟩ := hrefused
    rw [handler_packet, packet, herror]
  by_cases hheader : Header.length + 0 ≤ frame.length
  · rw [accept, Frame.body_of_length_le hheader]
    dsimp only
    by_cases hstart : Bytes.word16 2 frame = startId
    · have hshort : frame.length < Header.length + Start.bodyLength :=
        Nat.lt_of_not_le fun hlength => h (Or.inl ⟨hlength, hstart⟩)
      obtain ⟨error, herror⟩ : ∃ error, Start.decode frame = .error error :=
        Frame.exists_error_map_of_length_lt hshort _
      rw [if_pos hstart, herror]
      exact ⟨error, rfl⟩
    · by_cases hdata : Bytes.word16 2 frame = dataId
      · have hshort : frame.length < Header.length + Data.headLength :=
          Nat.lt_of_not_le fun hlength => h (Or.inr ⟨hlength, hdata⟩)
        obtain ⟨error, herror⟩ : ∃ error, Data.decode frame = .error error :=
          Frame.exists_error_map_of_length_lt hshort _
        rw [if_neg hstart, if_pos hdata, herror]
        exact ⟨error, rfl⟩
      · rw [if_neg hstart, if_neg hdata]
        exact ⟨_, rfl⟩
  · obtain ⟨error, herror⟩ := Frame.exists_error_of_length_lt (Nat.lt_of_not_le hheader)
    rw [accept, herror]
    exact ⟨error, rfl⟩

theorem closes_packet_iff (frame : Bytes) (r : Receiver) :
    Action.closes (handler.packet frame r).2 = true ↔ ¬ Meaningful frame := by
  suffices hopen : Meaningful frame → Action.closes (handler.packet frame r).2 = false by
    constructor
    · intro hcloses hmeaningful
      rw [hopen hmeaningful] at hcloses
      cases hcloses
    · intro hnot
      rw [packet_of_not_meaningful hnot]
      rfl
  rintro (hstart | hmessage)
  · rw [packet_of_isStart hstart]
    rfl
  · rw [packet_of_isMessage hmessage, count]
    split
    · exact Action.closes_map_send _
    · rfl

end Receiver

/-! ## The latest run -/

/-- The last start frame is `start`, behind `before`, and these messages have
come since. -/
structure LatestRun (frames before : List Bytes) (start : Bytes) (messages : List Bytes) :
    Prop where
  isStart : IsStart start
  isMessage : ∀ message ∈ messages, IsMessage message
  append_eq : before ++ start :: messages = frames

section LatestRun

variable {frames before messages : List Bytes} {start frame : Bytes}

/-- The last frame began the run, or it is the last message of it. -/
theorem LatestRun.of_concat (h : LatestRun (frames ++ [frame]) before start messages) :
    (before = frames ∧ start = frame ∧ messages = []) ∨
      ∃ earlier, messages = earlier ++ [frame] ∧ LatestRun frames before start earlier := by
  rcases List.eq_nil_or_concat messages with rfl | ⟨earlier, last, rfl⟩
  · obtain ⟨hfront, hlast⟩ := List.append_inj' h.append_eq rfl
    exact Or.inl ⟨hfront, List.singleton_inj.mp hlast, rfl⟩
  · have happend := h.append_eq
    rw [List.concat_eq_append, ← List.cons_append, ← List.append_assoc] at happend
    obtain ⟨hfront, hlast⟩ := List.append_inj' happend rfl
    obtain rfl := List.singleton_inj.mp hlast
    refine Or.inr ⟨earlier, List.concat_eq_append, h.isStart, ?_, hfront⟩
    intro message hmem
    refine h.isMessage message ?_
    rw [List.concat_eq_append]
    exact List.mem_append_left _ hmem

theorem LatestRun.of_concat_start (h : LatestRun (frames ++ [frame]) before start messages)
    (hframe : IsStart frame) : before = frames ∧ start = frame ∧ messages = [] := by
  rcases h.of_concat with hbegun | ⟨earlier, rfl, -⟩
  · exact hbegun
  · have hlast : frame ∈ earlier ++ [frame] := List.mem_append_right _ List.mem_cons_self
    exact absurd (h.isMessage frame hlast) hframe.not_isMessage

theorem LatestRun.of_concat_message (h : LatestRun (frames ++ [frame]) before start messages)
    (hframe : IsMessage frame) :
    ∃ earlier, messages = earlier ++ [frame] ∧ LatestRun frames before start earlier := by
  rcases h.of_concat with ⟨-, rfl, -⟩ | hlonger
  · exact absurd hframe h.isStart.not_isMessage
  · exact hlonger

theorem LatestRun.concat (h : LatestRun frames before start messages) (hframe : IsMessage frame) :
    LatestRun (frames ++ [frame]) before start (messages ++ [frame]) := by
  refine ⟨h.isStart, ?_, ?_⟩
  · intro message hmem
    rcases List.mem_append.mp hmem with hold | hnew
    · exact h.isMessage message hold
    · exact List.mem_singleton.mp hnew ▸ hframe
  · rw [← h.append_eq, List.append_assoc, List.cons_append]

theorem LatestRun.countP_eq (h : LatestRun frames before start messages) :
    frames.countP IsMessage = before.countP IsMessage + messages.length := by
  have hmessages : messages.countP IsMessage = messages.length :=
    List.countP_eq_length.mpr fun message hmem => decide_eq_true (h.isMessage message hmem)
  rw [← h.append_eq, List.countP_append, List.countP_cons_of_neg, hmessages]
  rw [decide_eq_true_eq]
  exact h.isStart.not_isMessage

end LatestRun

/-! ## What the messages of a run say -/

/-- The messages of a run, when they arrived at a clock that had been read for
so many others. -/
def arrivals (clock : Clock) (earlier : Nat) (messages : List Bytes) : List Arrival :=
  messages.mapIdx fun i message =>
    ⟨⟨Bytes.word32 4 message, madeAt message⟩,
      message.length - (Header.length + Data.headLength),
      clock.reading (clock.ticks + (earlier + i))⟩

/-- How long each message of a run was under way. -/
def latencies (clock : Clock) (earlier : Nat) (messages : List Bytes) : List UInt32 :=
  messages.mapIdx fun i message =>
    clockMs (clock.reading (clock.ticks + (earlier + i))) - madeAt message

theorem arrivals_concat (clock : Clock) (earlier : Nat) (messages : List Bytes) (message : Bytes) :
    arrivals clock earlier (messages ++ [message]) = arrivals clock earlier messages ++
      [⟨⟨Bytes.word32 4 message, madeAt message⟩,
        message.length - (Header.length + Data.headLength),
        clock.reading (clock.ticks + (earlier + messages.length))⟩] :=
  List.mapIdx_concat

theorem map_latency_arrivals (clock : Clock) (earlier : Nat) (messages : List Bytes) :
    (arrivals clock earlier messages).map Arrival.latency = latencies clock earlier messages := by
  refine List.ext_getElem (by simp [arrivals, latencies]) fun i _ _ => ?_
  simp [arrivals, latencies, Arrival.latency, Stats.latency]

/-- A result that says of a run of `count` messages that all of them arrived,
with the greatest and the least latency among these. -/
structure Result.Sums (result : Result) (count : UInt32) (latencies : List UInt32) : Prop where
  total_eq : result.total = count
  received_eq : result.received = count
  lost_eq : result.lost = 0
  maximum_eq : ∃ greatest, latencies.max? = some greatest ∧
    result.maximum = greatest.toFloat32.toBits
  minimum_eq : ∃ least, latencies.min? = some least ∧ result.minimum = least.toFloat32.toBits

theorem sums_recordAll {clock : Clock} {earlier : Nat} {messages : List Bytes} {count : UInt32}
    (hsome : messages ≠ []) (hcount : messages.length = count.toNat) :
    ((Stats.start count).recordAll (arrivals clock earlier messages)).result.Sums count
      (latencies clock earlier messages) := by
  have hreceived :
      ((Stats.start count).recordAll (arrivals clock earlier messages)).received =
        count.toNat := by
    rw [Stats.received_recordAll, arrivals, List.length_mapIdx, hcount]
    exact Nat.zero_add _
  have hexpected :
      ((Stats.start count).recordAll (arrivals clock earlier messages)).expected = count :=
    Stats.expected_recordAll _ _
  have hlatencies : latencies clock earlier messages ≠ [] := by
    intro hnil
    rw [latencies, List.mapIdx_eq_nil_iff] at hnil
    exact hsome hnil
  obtain ⟨greatest, hgreatest⟩ := Option.ne_none_iff_exists'.mp
    (fun hnone => hlatencies (List.max?_eq_none_iff.mp hnone))
  obtain ⟨least, hleast⟩ := Option.ne_none_iff_exists'.mp
    (fun hnone => hlatencies (List.min?_eq_none_iff.mp hnone))
  refine ⟨hexpected, ?_, ?_, ⟨greatest, hgreatest, ?_⟩, ⟨least, hleast, ?_⟩⟩
  · rw [Stats.result, hreceived]
    exact UInt32.ofNat_toNat
  · rw [Stats.result, hreceived, hexpected, Nat.sub_self]
    rfl
  · rw [Stats.result, Stats.latencyMax_recordAll, map_latency_arrivals, hgreatest]
    rfl
  · rw [Stats.result, Stats.latencyMin_recordAll, map_latency_arrivals, hleast]
    rfl

/-! ## Answers -/

/-- The frame is the message that makes the latest run complete. -/
structure Completes (frames before : List Bytes) (start : Bytes) (messages : List Bytes)
    (frame : Bytes) : Prop where
  isMessage : IsMessage frame
  latestRun : LatestRun frames before start messages
  last : messages.length + 1 = (announced start).toNat

/-- The answer to a frame behind `past`, the frames before it with their
answers. -/
structure Answers (clock : Clock) (past : List (Bytes × List Action)) (frame : Bytes)
    (answer : List Action) : Prop where
  refused : ¬ Meaningful frame → answer = [.disconnect]
  /-- The result covers the messages of the run, none of which was answered. -/
  completing : ∀ {before start messages},
    Completes (past.map Prod.fst) before start messages frame →
      (∀ entry ∈ past.drop before.length, entry.2 = []) ∧
        ∃ (result : Result) (reply : Bytes),
          Frame.build? resultId result.body = some reply ∧ answer = [.send reply] ∧
          result.Sums (announced start)
            (latencies clock (before.countP IsMessage) (messages ++ [frame]))
  silent : Meaningful frame →
    (¬ ∃ before start messages, Completes (past.map Prod.fst) before start messages frame) →
      answer = []

/-- What a receiver that was shown `past` has measured. -/
structure Tracks (clock : Clock) (past : List (Bytes × List Action)) (r : Receiver) : Prop where
  clock_eq : r.clock = { clock with ticks := clock.ticks + (past.map Prod.fst).countP IsMessage }
  /-- While the latest run is not complete, its messages. -/
  running : ∀ {before start messages}, LatestRun (past.map Prod.fst) before start messages →
    messages.length < (announced start).toNat →
      r.stats = (Stats.start (announced start)).recordAll
        (arrivals clock (before.countP IsMessage) messages) ∧
      ∀ entry ∈ past.drop before.length, entry.2 = []
  /-- If there is none that is not complete, no run. -/
  idle : (∀ {before start messages}, LatestRun (past.map Prod.fst) before start messages →
    (announced start).toNat ≤ messages.length) → r.stats.expected = 0

theorem tracks_new (clock : Clock) : Tracks clock [] (.new clock) where
  clock_eq := rfl
  running h _ := absurd h.append_eq (by simp)
  idle _ := rfl

/-- The frames of a history, with one more of them. -/
theorem map_fst_concat (past : List (Bytes × List Action)) (frame : Bytes)
    (answer : List Action) :
    (past ++ [(frame, answer)]).map Prod.fst = past.map Prod.fst ++ [frame] := by
  rw [List.map_append, List.map_singleton]

namespace Tracks

variable {clock : Clock} {past : List (Bytes × List Action)} {r : Receiver} {frame : Bytes}

/-! ### A start frame -/

theorem start (h : Tracks clock past r) (hframe : IsStart frame) :
    Tracks clock (past ++ [(frame, [])]) { r with stats := Stats.start (announced frame) } where
  clock_eq := by
    rw [map_fst_concat, List.countP_append, List.countP_singleton,
      if_neg (by rw [decide_eq_true_eq]; exact hframe.not_isMessage)]
    exact h.clock_eq
  running {before start messages} hrun _ := by
    rw [map_fst_concat] at hrun
    obtain ⟨rfl, rfl, rfl⟩ := hrun.of_concat_start hframe
    refine ⟨rfl, ?_⟩
    rw [List.length_map, List.drop_left]
    intro entry hmem
    rw [List.mem_singleton.mp hmem]
  idle hover := by
    have hrun : LatestRun ((past ++ [(frame, [])]).map Prod.fst) (past.map Prod.fst) frame [] := by
      refine ⟨hframe, fun message hmem => absurd hmem List.not_mem_nil, ?_⟩
      rw [map_fst_concat]
    have hnone : (announced frame).toNat = 0 := Nat.le_zero.mp (hover hrun)
    exact UInt32.toNat_inj.mp hnone

/-! ### A message -/

/-- A message is what the clock is read for. -/
theorem tick_eq (h : Tracks clock past r) (hframe : IsMessage frame) (answer : List Action) :
    r.clock.tick = { clock with
      ticks := clock.ticks + ((past ++ [(frame, answer)]).map Prod.fst).countP IsMessage } := by
  rw [map_fst_concat, List.countP_append, List.countP_singleton,
    if_pos (decide_eq_true hframe), ← Nat.add_assoc, Clock.tick, h.clock_eq]

theorem statsWith_eq (h : Tracks clock past r) {before messages : List Bytes} {start : Bytes}
    (hrun : LatestRun (past.map Prod.fst) before start messages)
    (hmore : messages.length < (announced start).toNat) (frame : Bytes) :
    r.statsWith frame = (Stats.start (announced start)).recordAll
      (arrivals clock (before.countP IsMessage) (messages ++ [frame])) := by
  rw [Receiver.statsWith, (h.running hrun hmore).1, arrivals_concat, Stats.recordAll_concat,
    Clock.now, h.clock_eq, hrun.countP_eq]

theorem isComplete_of_running (h : Tracks clock past r) {before messages : List Bytes}
    {start : Bytes} (hrun : LatestRun (past.map Prod.fst) before start messages)
    (hmore : messages.length < (announced start).toNat) (frame : Bytes) :
    (r.statsWith frame).isComplete = true ↔
      messages.length + 1 = (announced start).toNat := by
  have hlength : (arrivals clock (before.countP IsMessage) (messages ++ [frame])).length =
      messages.length + 1 := by
    rw [arrivals, List.length_mapIdx, List.length_append, List.length_singleton]
  have hreceived : (Stats.start (announced start)).received = 0 := rfl
  have hexpected : (Stats.start (announced start)).expected = announced start := rfl
  rw [h.statsWith_eq hrun hmore, Stats.isComplete, Stats.expected_recordAll,
    Stats.received_recordAll, hlength, hreceived, hexpected, Bool.and_eq_true,
    decide_eq_true_eq, decide_eq_true_eq, UInt32.lt_iff_toNat_lt, UInt32.toNat_zero]
  omega

theorem isComplete_iff (h : Tracks clock past r) (hframe : IsMessage frame) :
    (r.statsWith frame).isComplete = true ↔
      ∃ before start messages, Completes (past.map Prod.fst) before start messages frame := by
  constructor
  · intro hcomplete
    by_cases hrunning : ∃ before start messages,
        LatestRun (past.map Prod.fst) before start messages ∧
          messages.length < (announced start).toNat
    · obtain ⟨before, start, messages, hrun, hmore⟩ := hrunning
      exact ⟨before, start, messages, hframe, hrun,
        (h.isComplete_of_running hrun hmore frame).mp hcomplete⟩
    · have hover : r.stats.expected = 0 := h.idle fun {before start messages} hrun =>
        Nat.le_of_not_lt fun hmore => hrunning ⟨before, start, messages, hrun, hmore⟩
      rw [Stats.isComplete, Receiver.statsWith, Stats.expected_record, hover] at hcomplete
      cases hcomplete
  · rintro ⟨before, start, messages, -, hrun, hlast⟩
    exact (h.isComplete_of_running hrun (by omega) frame).mpr hlast

theorem answers_complete (h : Tracks clock past r) {before messages : List Bytes} {start : Bytes}
    (hcompletes : Completes (past.map Prod.fst) before start messages frame) :
    (∀ entry ∈ past.drop before.length, entry.2 = []) ∧
      ∃ (result : Result) (reply : Bytes),
        Frame.build? resultId result.body = some reply ∧
        (Receiver.handler.packet frame r).2 = [.send reply] ∧
        result.Sums (announced start)
          (latencies clock (before.countP IsMessage) (messages ++ [frame])) := by
  obtain ⟨hframe, hrun, hlast⟩ := hcompletes
  have hmore : messages.length < (announced start).toNat := by omega
  have hcomplete := (h.isComplete_of_running hrun hmore frame).mpr hlast
  rw [Receiver.packet_of_complete hframe hcomplete, h.statsWith_eq hrun hmore]
  have hfit : Header.length + (((Stats.start (announced start)).recordAll
      (arrivals clock (before.countP IsMessage) (messages ++ [frame]))).result.body).length ≤
        Frame.maxLength := by
    rw [Result.length_body]
    decide
  obtain ⟨reply, hreply⟩ := Frame.exists_build? resultId hfit
  refine ⟨(h.running hrun hmore).2, _, reply, hreply, ?_, sums_recordAll (by simp) ?_⟩
  · rw [hreply]
    rfl
  · rw [List.length_append, List.length_singleton]
    exact hlast

/-- Behind the message that makes the latest run complete there is no run. -/
theorem complete (h : Tracks clock past r) (hframe : IsMessage frame)
    (hcompletes : ∃ before start messages,
      Completes (past.map Prod.fst) before start messages frame) (answer : List Action) :
    Tracks clock (past ++ [(frame, answer)]) (Receiver.handler.packet frame r).1 := by
  have hcomplete := (h.isComplete_iff hframe).mpr hcompletes
  rw [Receiver.packet_of_complete hframe hcomplete]
  refine ⟨?_, ?_, fun _ => rfl⟩
  · exact h.tick_eq hframe _
  · intro before start messages hrun hmore
    rw [map_fst_concat] at hrun
    obtain ⟨earlier, rfl, hearlier⟩ := hrun.of_concat_message hframe
    rw [List.length_append, List.length_singleton] at hmore
    have hlast := (h.isComplete_of_running hearlier (by omega) frame).mp hcomplete
    omega

/-- Any other message is counted. -/
theorem incomplete (h : Tracks clock past r) (hframe : IsMessage frame)
    (hincomplete : ¬ ∃ before start messages,
      Completes (past.map Prod.fst) before start messages frame) :
    (Receiver.handler.packet frame r).2 = [] ∧
      Tracks clock (past ++ [(frame, [])]) (Receiver.handler.packet frame r).1 := by
  have hopen := (Bool.not_eq_true _).mp fun hcomplete =>
    hincomplete ((h.isComplete_iff hframe).mp hcomplete)
  rw [Receiver.packet_of_incomplete hframe hopen]
  refine ⟨rfl, ?_, ?_, ?_⟩
  · exact h.tick_eq hframe _
  · intro before start messages hrun hmore
    rw [map_fst_concat] at hrun
    obtain ⟨earlier, rfl, hearlier⟩ := hrun.of_concat_message hframe
    rw [List.length_append, List.length_singleton] at hmore
    have hunder : earlier.length < (announced start).toNat := by omega
    refine ⟨h.statsWith_eq hearlier hunder frame, ?_⟩
    have hbefore : before.length ≤ past.length := by
      have hlength := congrArg List.length hearlier.append_eq
      rw [List.length_append, List.length_map] at hlength
      omega
    rw [List.drop_append_of_le_length hbefore]
    intro entry hmem
    rcases List.mem_append.mp hmem with hold | hnew
    · exact (h.running hearlier hunder).2 entry hold
    · rw [List.mem_singleton.mp hnew]
  · intro hover
    -- recording keeps what is expected
    show r.stats.expected = 0
    refine h.idle fun {before start messages} hrun => ?_
    -- a run that is not over could only be the one that this message completes
    have hconcat : LatestRun ((past ++ [(frame, [])]).map Prod.fst) before start
        (messages ++ [frame]) := by
      rw [map_fst_concat]
      exact hrun.concat hframe
    have hlonger := hover hconcat
    rw [List.length_append, List.length_singleton] at hlonger
    refine Nat.le_of_not_lt fun hmore => hincomplete ⟨before, start, messages, hframe, hrun, ?_⟩
    omega

/-! ### Any frame -/

theorem answers (h : Tracks clock past r) (frame : Bytes) :
    Answers clock past frame (Receiver.handler.packet frame r).2 where
  refused hnot := by rw [Receiver.packet_of_not_meaningful hnot]
  completing hcompletes := h.answers_complete hcompletes
  silent hmeaningful hincomplete := by
    rcases hmeaningful with hstart | hmessage
    · rw [Receiver.packet_of_isStart hstart]
    · exact (h.incomplete hmessage hincomplete).1

theorem step (h : Tracks clock past r) (hframe : Meaningful frame) :
    Tracks clock (past ++ [(frame, (Receiver.handler.packet frame r).2)])
      (Receiver.handler.packet frame r).1 := by
  rcases hframe with hstart | hmessage
  · rw [Receiver.packet_of_isStart hstart]
    exact h.start hstart
  · by_cases hcompletes : ∃ before start messages,
        Completes (past.map Prod.fst) before start messages frame
    · exact h.complete hmessage hcompletes _
    · obtain ⟨hsilent, hnext⟩ := h.incomplete hmessage hcompletes
      rw [hsilent]
      exact hnext

/-! ### Any frames -/

theorem answers_log (h : Tracks clock past r) {frames : List Bytes}
    {now later : List (Bytes × List Action)} {answer : List Action}
    (hlog : Reaction.log Receiver.handler.packet frames r = now ++ (frame, answer) :: later) :
    Answers clock (past ++ now) frame answer := by
  induction frames generalizing past r now with
  | nil => cases now <;> cases hlog
  | cons first frames ih =>
      cases now with
      | nil =>
          obtain ⟨hentry, -⟩ := List.cons.inj hlog
          obtain ⟨rfl, rfl⟩ := Prod.mk.inj hentry
          rw [List.append_nil]
          exact h.answers first
      | cons entry now =>
          obtain ⟨rfl, hrest⟩ := List.cons.inj hlog
          by_cases hcloses : Action.closes (Receiver.handler.packet first r).2 = true
          · rw [if_pos hcloses] at hrest
            cases now <;> cases hrest
          · have hfirst : Meaningful first :=
              Classical.not_not.mp (mt (Receiver.closes_packet_iff first r).mpr hcloses)
            rw [if_neg hcloses] at hrest
            rw [List.append_cons]
            exact ih (h.step hfirst) hrest

end Tracks

/-! ## Sessions -/

theorem closed_of_meaningful {frames : List Bytes}
    (hframes : ∀ frame ∈ frames, Meaningful frame) (r : Receiver) :
    Reaction.closed Receiver.handler.packet frames r = false := by
  induction frames generalizing r with
  | nil => rfl
  | cons frame frames ih =>
      have hopen := mt (Receiver.closes_packet_iff frame r).mp
        (not_not_intro (hframes frame List.mem_cons_self))
      rw [Reaction.closed_cons, (Bool.not_eq_true _).mp hopen, Bool.false_or]
      exact ih (fun other hmem => hframes other (List.mem_cons_of_mem _ hmem)) _

section Scanning

variable {limit : Nat} {frames : List Bytes} {frame : Bytes} (r : Receiver)

theorem scan_meaningful (hlimit : 0 < limit) (hfit : Frame.FitIn limit frames)
    (hframes : ∀ frame ∈ frames, Meaningful frame) :
    (Receiver.handler.scan limit r frames.flatten).frames = frames ∧
      (Receiver.handler.scan limit r frames.flatten).verdict = .connected [] :=
  Receiver.handler.scan_flatten hlimit hfit (closed_of_meaningful hframes r)

theorem scan_refused (hfit : Frame.FitIn limit (frames ++ [frame]))
    (hframes : ∀ frame ∈ frames, Meaningful frame) (hframe : ¬ Meaningful frame) (behind : Bytes) :
    (Receiver.handler.scan limit r ((frames ++ [frame]).flatten ++ behind)).frames =
        frames ++ [frame] ∧
      (Receiver.handler.scan limit r ((frames ++ [frame]).flatten ++ behind)).verdict =
        .ended .handler :=
  Receiver.handler.scan_flatten_of_closes hfit (closed_of_meaningful hframes r)
    ((Receiver.closes_packet_iff _ _).mpr hframe) behind

end Scanning

/-- What a session and its receiver make of a stream of bytes, on a connection
that can carry frames of `limit` bytes. The log has every frame that the
receiver was shown, with the answer. -/
structure Measured (clock : Clock) (limit : Nat) (stream : Bytes) (before after : Session Receiver)
    (log : List (Bytes × List Action)) : Prop where
  answers : ∀ {past frame answer later}, log = past ++ (frame, answer) :: later →
    Answers clock past frame answer
  sent_eq : after.sent = before.sent ++ log.flatMap fun entry => Action.frames entry.2
  /-- Frames of a load test at the front of the stream are all shown. -/
  shown : ∀ {frames behind}, Frame.FitIn limit frames → frames.flatten ++ behind = stream →
    (∀ frame ∈ frames, Meaningful frame) → frames <+: log.map Prod.fst
  /-- The first other frame is the last that is shown. -/
  ended : ∀ {frames frame behind}, Frame.FitIn limit (frames ++ [frame]) →
    (frames ++ [frame]).flatten ++ behind = stream → (∀ frame ∈ frames, Meaningful frame) →
      ¬ Meaningful frame → log.map Prod.fst = frames ++ [frame] ∧ after.phase = .disconnected
  connected : ∀ {frames}, Frame.FitIn limit frames → frames.flatten = stream →
    (∀ frame ∈ frames, Meaningful frame) →
      log.map Prod.fst = frames ∧ after.isConnected = true

/-- However the bytes of a connection are cut, its receiver answers every frame
as the frames before it say. -/
theorem measured_receiveAll (clock : Clock) {B : Nat} (hB : 0 < B) {s : Session Receiver}
    (hs : s.isConnected = true) (hbuffer : s.buffer = .empty B) (hstate : s.state = .new clock)
    {reads : List Bytes} (hreads : s.Admits Receiver.handler.session reads) :
    let log :=
      Reaction.log Receiver.handler.packet (s.dispatched Receiver.handler reads) (.new clock)
    log.map Prod.fst = s.dispatched Receiver.handler reads ∧
      Measured clock (10 * B) reads.flatten s (s.receiveAll Receiver.handler.session reads)
        log := by
  have hready := Session.ready_of_empty (Session.isConnected_eq_true_iff.mp hs) hbuffer hB
  have hdata : s.buffer.data = [] := by
    rw [hbuffer, ReceiveBuffer.data_empty]
  have hcapacity : s.buffer.capacity = 10 * B := by
    rw [hbuffer, ReceiveBuffer.capacity_empty, ReceiveBuffer.readsHeld]
  have hrun := Session.receiveAll_eq_scan Receiver.handler hready
    (by rw [hdata, Frame.front_nil]) (by rw [hdata]; exact hready.capacity_pos) hreads
  rw [hdata, List.nil_append, hcapacity, hstate] at hrun
  obtain ⟨hshown, hactions⟩ :=
    Receiver.handler.scan_frames (10 * B) (.new clock) reads.flatten
  intro log
  have hlog : log.map Prod.fst =
      (Receiver.handler.scan (10 * B) (.new clock) reads.flatten).frames := by
    show Reaction.shown _ _ _ = _
    rw [hrun.dispatched_eq, hshown]
  refine ⟨by rw [hlog, hrun.dispatched_eq], ?_, ?_, ?_, ?_, ?_⟩
  · intro past frame answer later hsplit
    exact (tracks_new clock).answers_log hsplit
  · rw [hrun.sent_eq, ← hactions, Reaction.frames_actions, ← hrun.dispatched_eq]
  · rintro frames behind hfit hstream hframes
    have hscan := Receiver.handler.scan_flatten_append hfit
      (closed_of_meaningful hframes (.new clock)) behind
    rw [hlog, ← hstream, hscan.1]
    exact ⟨_, rfl⟩
  · rintro frames frame behind hfit hstream hframes hframe
    obtain ⟨hframes', hended⟩ := scan_refused (.new clock) hfit hframes hframe behind
    rw [hstream] at hframes' hended
    exact ⟨hlog.trans hframes', (hrun.ended _ hended).phase_eq⟩
  · rintro frames hfit hstream hframes
    obtain ⟨hframes', hconnected⟩ :=
      scan_meaningful (.new clock) (Nat.mul_pos (by decide) hB) hfit hframes
    rw [hstream] at hframes' hconnected
    exact ⟨hlog.trans hframes',
      Session.isConnected_eq_true_iff.mpr (hrun.connected _ hconnected).1.phase_eq⟩

/-- A run of two messages, cut within the header of its first frame. -/
theorem measured_receiveAll_twoMessages :
    let s := ((Session.create 4 (Receiver.new .still)).connect.2).opened
      Receiver.handler.session true
    let start : Bytes := [16, 0, 10, 0, 2, 0, 0, 0, 0, 0, 0, 0, 0, 0, 0, 0]
    let first : Bytes := [12, 0, 11, 0, 0, 0, 0, 0, 5, 0, 0, 0]
    let second : Bytes := [12, 0, 11, 0, 1, 0, 0, 0, 7, 0, 0, 0]
    let reads : List Bytes := [start.take 2, start.drop 2 ++ first ++ second]
    s.isConnected = true ∧ s.buffer = .empty 4 ∧ s.state = .new .still ∧
      s.Admits Receiver.handler.session reads ∧
      s.dispatched Receiver.handler reads = [start, first, second] ∧
      (s.receiveAll Receiver.handler.session reads).isConnected = true ∧
      ∃ (result : Result) (reply : Bytes), Frame.build? resultId result.body = some reply ∧
        (s.receiveAll Receiver.handler.session reads).sent = [reply] ∧
        result.Sums 2 [4294967291, 4294967289] := by
  intro s start first second reads
  have hreads : s.Admits Receiver.handler.session reads :=
    ⟨fun _ => ⟨by decide, by decide +kernel⟩, fun _ => ⟨by decide, by decide +kernel⟩, trivial⟩
  have hfit : Frame.FitIn (10 * 4) [start, first, second] := by
    intro frame hmem
    rw [Frame.isFrame_iff]
    simp only [List.mem_cons, List.not_mem_nil, or_false] at hmem
    rcases hmem with rfl | rfl | rfl <;> exact ⟨⟨by decide, by decide⟩, by decide⟩
  have hframes : ∀ frame ∈ [start, first, second], Meaningful frame := by decide
  obtain ⟨hlog, hmeasured⟩ := measured_receiveAll .still (by decide : 0 < 4) rfl rfl rfl hreads
  obtain ⟨hshown, hconnected⟩ := hmeasured.connected hfit rfl hframes
  refine ⟨rfl, rfl, rfl, hreads, hlog.symm.trans hshown, hconnected, ?_⟩
  have hsent := hmeasured.sent_eq
  have hanswers := @hmeasured.answers
  generalize Reaction.log _ _ _ = log at hshown hsent hanswers
  obtain ⟨⟨_, answer⟩, rest, rfl, rfl, hrest⟩ := List.map_eq_cons_iff.mp hshown
  obtain ⟨⟨_, answer'⟩, rest', rfl, rfl, hrest'⟩ := List.map_eq_cons_iff.mp hrest
  obtain ⟨⟨_, answer''⟩, _, rfl, rfl, hnil⟩ := List.map_eq_cons_iff.mp hrest'
  obtain rfl := List.map_eq_nil_iff.mp hnil
  have hcompletes : Completes ([(start, answer), (first, answer')].map Prod.fst) [] start [first]
      second := ⟨by decide, ⟨by decide, by decide, rfl⟩, by decide⟩
  have hlast : [(start, answer), (first, answer'), (second, answer'')] =
    [(start, answer), (first, answer')] ++ [(second, answer'')] := rfl
  obtain ⟨hsilent, result, reply, hreply, rfl, hsums⟩ := (hanswers hlast).completing hcompletes
  refine ⟨result, reply, hreply, ?_, hsums⟩
  obtain rfl : answer = [] := hsilent (start, answer) (by simp)
  obtain rfl : answer' = [] := hsilent (first, answer') (by simp)
  exact hsent

end Stress

end SessionEngine

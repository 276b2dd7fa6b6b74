import SessionEngine.Proofs.Frame.Front
import SessionEngine.Proofs.Session.Reading

/-!
# What a stream of frames comes to

`PacketHandler.scan` says what a handler makes of a byte stream, in one go and
without any buffer: whole frames are taken off the front until the handler
closes the connection, a header cannot be, or what is left is no whole frame.
A frame longer than the memory of the connection is the end of it, as soon as
as many bytes of it are there as the memory holds.

The two facts that carry everything else:

- `scan_append`: scanning can stop anywhere and be taken up again with the
  unread bytes, because nothing that was decided depends on later bytes;
- `receive_of_scan`: one read of a session does what scanning the unread and
  the new bytes does.

The first is an induction on the frames of the stream. In the second the
memory never holds a frame that is too long, so the case of the long frame
can only be the case of the full memory.
-/

namespace SessionEngine

/-! ## Outcomes -/

/-- Why a session ended that was reading frames. -/
inductive Ending where
  /-- The handler closed the connection. -/
  | handler
  /-- The bytes at the front can be no frame. -/
  | malformed (error : FrameError)
  /-- The memory was full and held no whole frame. -/
  | overflow
deriving DecidableEq

/-- Where a session stands after some reads. -/
inductive Verdict where
  /-- It waits for more bytes behind these. -/
  | connected (unread : Bytes)
  | ended (cause : Ending)
deriving DecidableEq

namespace Verdict

/-- What a verdict says about the bytes behind the frames that were shown, on
a connection whose memory holds `limit` bytes. -/
def Explains (limit : Nat) (rest : Bytes) : Verdict → Prop
  | .connected unread =>
      rest = unread ∧ unread.length < limit ∧ Frame.front unread = .incomplete
  | .ended .handler => True
  | .ended (.malformed error) =>
      ∃ size, error = .invalidSize size ∧ Frame.front rest = .malformed size
  | .ended .overflow =>
      limit ≤ rest.length ∧ ∃ header, Header.parse? rest = some header ∧
        limit < header.size.toNat

/-- A frame that is there in full and was not shown is too long. -/
theorem Explains.limit_lt_of_whole {limit : Nat} {rest : Bytes} {v : Verdict}
    (hv : v.Explains limit rest) (hne : v ≠ .ended .handler) {frame more : Bytes}
    (hfront : Frame.front rest = .whole frame more) : limit < frame.length := by
  cases v with
  | connected unread =>
      obtain ⟨rfl, -, hincomplete⟩ := hv
      rw [hincomplete] at hfront
      cases hfront
  | ended cause =>
      cases cause with
      | handler => exact absurd rfl hne
      | malformed error =>
          obtain ⟨size, -, hmalformed⟩ := hv
          rw [hmalformed] at hfront
          cases hfront
      | overflow =>
          obtain ⟨-, header, hp, hlong⟩ := hv
          obtain ⟨header', hp', -, rfl, -, hlen⟩ := Frame.parse?_of_front_eq_whole hfront
          obtain rfl := Option.some.inj (hp'.symm.trans hp)
          rw [List.length_take]
          omega

/-- The memory overflows exactly if it is full of a frame that is too long. -/
theorem Explains.overflow_iff {limit : Nat} (hlimit : Header.length ≤ limit) {rest : Bytes}
    {v : Verdict} (hv : v.Explains limit rest) :
    v = .ended .overflow ↔ v ≠ .ended .handler ∧ ∃ header, Header.parse? rest = some header ∧
      limit < header.size.toNat ∧ limit ≤ rest.length := by
  constructor
  · rintro rfl
    obtain ⟨hfull, header, hp, hlong⟩ := hv
    refine ⟨?_, header, hp, hlong, hfull⟩
    exact fun heq => by cases heq
  · rintro ⟨hne, header, hp, hlong, hfull⟩
    cases v with
    | connected unread =>
        obtain ⟨rfl, hroom, -⟩ := hv
        omega
    | ended cause =>
        cases cause with
        | handler => exact absurd rfl hne
        | malformed error =>
            obtain ⟨size, -, hmalformed⟩ := hv
            obtain ⟨header', hp', rfl, hsize⟩ := Frame.parse?_of_front_eq_malformed hmalformed
            obtain rfl := Option.some.inj (hp'.symm.trans hp)
            omega
        | overflow => rfl

end Verdict

/-- What a handler made of a byte stream. -/
structure Outcome (σ : Type) where
  /-- The state of the handler, before it is told of the end if there is one. -/
  state : σ
  frames : List Bytes
  actions : List Action
  verdict : Verdict

namespace Outcome

variable {σ : Type}

/-- The outcome if a frame came before. -/
def after (frame : Bytes) (actions : List Action) (o : Outcome σ) : Outcome σ :=
  { o with frames := frame :: o.frames, actions := actions ++ o.actions }

@[simp] theorem after_state (frame : Bytes) (actions : List Action) (o : Outcome σ) :
    (o.after frame actions).state = o.state := rfl

@[simp] theorem after_frames (frame : Bytes) (actions : List Action) (o : Outcome σ) :
    (o.after frame actions).frames = frame :: o.frames := rfl

@[simp] theorem after_actions (frame : Bytes) (actions : List Action) (o : Outcome σ) :
    (o.after frame actions).actions = actions ++ o.actions := rfl

@[simp] theorem after_verdict (frame : Bytes) (actions : List Action) (o : Outcome σ) :
    (o.after frame actions).verdict = o.verdict := rfl

/-- How many bytes the handler claims to have consumed, or why it refuses to
go on. -/
def consumed (o : Outcome σ) : Except FrameError Nat :=
  match o.verdict with
  | .ended (.malformed error) => .error error
  | _ => .ok o.frames.flatten.length

end Outcome

namespace Action

theorem closes_append (xs ys : List Action) : closes (xs ++ ys) = (closes xs || closes ys) := by
  simp [closes]

/-- Frames that are asked for while the connection stays open are all sent. -/
theorem frames_append {xs : List Action} (ys : List Action) (h : closes xs = false) :
    frames (xs ++ ys) = frames xs ++ frames ys := by
  induction xs with
  | nil => rfl
  | cons x xs ih =>
      cases x with
      | send frame =>
          have htail : closes xs = false := by simpa [closes] using h
          simp [frames, ih htail]
      | disconnect => simp [closes] at h

end Action

namespace PacketHandler

variable {σ : Type}

/-! ## Scanning -/

/-- What the handler makes of a stream, on a connection whose memory holds
`limit` bytes. -/
def scan (h : PacketHandler σ) (limit : Nat) (s : σ) (data : Bytes) : Outcome σ :=
  match _front : Frame.front data with
  | .incomplete =>
      ⟨s, [], [], if limit ≤ data.length then .ended .overflow else .connected data⟩
  | .malformed size => ⟨s, [], [], .ended (.malformed (.invalidSize size))⟩
  | .whole frame rest =>
      if limit < frame.length then ⟨s, [], [], .ended .overflow⟩
      else
        let (s, actions) := h.packet frame s
        if Action.closes actions then ⟨s, [frame], actions, .ended .handler⟩
        else (scan h limit s rest).after frame actions
termination_by data.length
decreasing_by exact Frame.length_rest_lt _front

section Equations

variable (h : PacketHandler σ) (limit : Nat) (s : σ) {data : Bytes}

theorem scan_of_incomplete (hfront : Frame.front data = .incomplete) :
    h.scan limit s data =
      ⟨s, [], [], if limit ≤ data.length then .ended .overflow else .connected data⟩ := by
  rw [scan]
  split
  next => rfl
  next size heq => rw [hfront] at heq; cases heq
  next frame rest heq => rw [hfront] at heq; cases heq

theorem scan_of_malformed {size : UInt16} (hfront : Frame.front data = .malformed size) :
    h.scan limit s data = ⟨s, [], [], .ended (.malformed (.invalidSize size))⟩ := by
  rw [scan]
  split
  next heq => rw [hfront] at heq; cases heq
  next other heq =>
      rw [hfront] at heq
      obtain rfl := Frame.Front.malformed.inj heq
      rfl
  next frame rest heq => rw [hfront] at heq; cases heq

theorem scan_of_whole {frame rest : Bytes} (hfront : Frame.front data = .whole frame rest) :
    h.scan limit s data =
      if limit < frame.length then ⟨s, [], [], .ended .overflow⟩
      else if Action.closes (h.packet frame s).2 then
        ⟨(h.packet frame s).1, [frame], (h.packet frame s).2, .ended .handler⟩
      else (h.scan limit (h.packet frame s).1 rest).after frame (h.packet frame s).2 := by
  rw [scan]
  split
  next heq => rw [hfront] at heq; cases heq
  next size heq => rw [hfront] at heq; cases heq
  next other more heq =>
      rw [hfront] at heq
      obtain ⟨rfl, rfl⟩ := Frame.Front.whole.inj heq
      rfl

end Equations

/-- What the outcome says about the stream: it starts with the frames that
were shown, and the rest is as the verdict tells. -/
theorem exists_rest_of_scan (h : PacketHandler σ) {limit : Nat} (hlimit : Header.length ≤ limit)
    (s : σ) (data : Bytes) :
    ∃ rest, (h.scan limit s data).frames.flatten ++ rest = data ∧
      (h.scan limit s data).verdict.Explains limit rest := by
  induction data using Frame.stream_induction generalizing s with
  | incomplete data hfront =>
      rw [scan_of_incomplete h limit s hfront]
      refine ⟨data, rfl, ?_⟩
      by_cases hfull : limit ≤ data.length
      · simp only [if_pos hfull]
        obtain ⟨header, hp, -, hlen⟩ :=
          Frame.size_of_front_eq_incomplete hfront (Nat.le_trans hlimit hfull)
        exact ⟨hfull, header, hp, by omega⟩
      · simp only [if_neg hfull]
        exact ⟨rfl, by omega, hfront⟩
  | malformed data size hfront =>
      rw [scan_of_malformed h limit s hfront]
      exact ⟨data, rfl, size, rfl, hfront⟩
  | whole data frame rest hfront ih =>
      rw [scan_of_whole h limit s hfront]
      split
      next hlong =>
          obtain ⟨header, hp, -, rfl, -, hlen⟩ := Frame.parse?_of_front_eq_whole hfront
          rw [List.length_take] at hlong
          exact ⟨data, rfl, by omega, header, hp, by omega⟩
      next =>
          split
          next =>
              refine ⟨rest, ?_, trivial⟩
              simpa using Frame.append_of_front_eq_whole hfront
          next =>
              obtain ⟨left, happend, hverdict⟩ := ih (h.packet frame s).1
              refine ⟨left, ?_, hverdict⟩
              rw [Outcome.after_frames, List.flatten_cons, List.append_assoc, happend]
              exact Frame.append_of_front_eq_whole hfront

/-- The connection is closed by the handler, and by nobody else, where it
asked for that. -/
theorem closes_scan (h : PacketHandler σ) (limit : Nat) (s : σ) (data : Bytes) :
    Action.closes (h.scan limit s data).actions = true ↔
      (h.scan limit s data).verdict = .ended .handler := by
  induction data using Frame.stream_induction generalizing s with
  | incomplete data hfront =>
      rw [scan_of_incomplete h limit s hfront]
      by_cases hfull : limit ≤ data.length <;> simp [Action.closes, hfull]
  | malformed data size hfront =>
      rw [scan_of_malformed h limit s hfront]
      simp [Action.closes]
  | whole data frame rest hfront ih =>
      rw [scan_of_whole h limit s hfront]
      split
      · simp [Action.closes]
      · split
        next hcloses => simp [hcloses]
        next hopen =>
            rw [Outcome.after_actions, Outcome.after_verdict, Action.closes_append,
              (Bool.not_eq_true _).mp hopen, Bool.false_or]
            exact ih (h.packet frame s).1

/-! ## Cutting a stream in two -/

/-- What more bytes add to an outcome. -/
def resume (h : PacketHandler σ) (limit : Nat) (o : Outcome σ) (more : Bytes) : Outcome σ :=
  match o.verdict with
  | .connected unread =>
      let o' := h.scan limit o.state (unread ++ more)
      { o' with frames := o.frames ++ o'.frames, actions := o.actions ++ o'.actions }
  | .ended _ => o

theorem resume_after (h : PacketHandler σ) (limit : Nat) (frame : Bytes) (actions : List Action)
    (o : Outcome σ) (more : Bytes) :
    h.resume limit (o.after frame actions) more = (h.resume limit o more).after frame actions := by
  unfold resume
  rw [Outcome.after_verdict]
  split
  · simp [Outcome.after]
  · rfl

/-- A stream can be cut anywhere. -/
theorem scan_append (h : PacketHandler σ) {limit : Nat} (hlimit : Header.length ≤ limit) (s : σ)
    (data more : Bytes) :
    h.scan limit s (data ++ more) = h.resume limit (h.scan limit s data) more := by
  induction data using Frame.stream_induction generalizing s with
  | incomplete data hfront =>
      rw [scan_of_incomplete h limit s hfront]
      by_cases hfull : limit ≤ data.length
      · -- the frame is longer than the memory, and more of it does not change that
        obtain ⟨header, hp, hsize, hlen⟩ :=
          Frame.size_of_front_eq_incomplete hfront (Nat.le_trans hlimit hfull)
        have hp' := Header.parse?_append_left more hp
        simp only [resume, if_pos hfull]
        by_cases hwhole : header.size.toNat ≤ (data ++ more).length
        · rw [scan_of_whole h limit s (Frame.front_of_size_le_length hp' hsize hwhole),
            if_pos (by rw [List.length_take]; omega)]
        · rw [scan_of_incomplete h limit s (Frame.front_of_length_lt hp' hsize (by omega)),
            if_pos (by rw [List.length_append]; omega)]
      · simp only [resume, if_neg hfull, List.nil_append]
  | malformed data size hfront =>
      rw [scan_of_malformed h limit s hfront,
        scan_of_malformed h limit s (Frame.front_append_of_malformed more hfront)]
      rfl
  | whole data frame rest hfront ih =>
      rw [scan_of_whole h limit s hfront,
        scan_of_whole h limit s (Frame.front_append_of_whole more hfront)]
      split
      · rfl
      · split
        · rfl
        · rw [resume_after, ih (h.packet frame s).1]

/-! ## Keeping a log -/

/-- The handler with a log of the frames that it was shown. -/
def logged (h : PacketHandler σ) : PacketHandler (σ × List Bytes) where
  connected s := (((h.connected s.1).1, s.2), (h.connected s.1).2)
  connectFailed failure s := (h.connectFailed failure s.1, s.2)
  packet frame s := (((h.packet frame s.1).1, s.2 ++ [frame]), (h.packet frame s.1).2)
  disconnected s := (h.disconnected s.1, s.2)

theorem logged_packet (h : PacketHandler σ) (frame : Bytes) (s : σ) (log : List Bytes) :
    h.logged.packet frame (s, log) =
      (((h.packet frame s).1, log ++ [frame]), (h.packet frame s).2) := rfl

/-- Keeping a log changes nothing, and the log holds what was shown. -/
theorem scan_logged (h : PacketHandler σ) (limit : Nat) (s : σ) (log : List Bytes)
    (data : Bytes) :
    h.logged.scan limit (s, log) data =
      { state := ((h.scan limit s data).state, log ++ (h.scan limit s data).frames)
        frames := (h.scan limit s data).frames
        actions := (h.scan limit s data).actions
        verdict := (h.scan limit s data).verdict } := by
  induction data using Frame.stream_induction generalizing s log with
  | incomplete data hfront =>
      rw [scan_of_incomplete h limit s hfront, scan_of_incomplete h.logged limit _ hfront]
      simp
  | malformed data size hfront =>
      rw [scan_of_malformed h limit s hfront, scan_of_malformed h.logged limit _ hfront]
      simp
  | whole data frame rest hfront ih =>
      rw [scan_of_whole h limit s hfront, scan_of_whole h.logged limit _ hfront, logged_packet]
      by_cases hlong : limit < frame.length
      · rw [if_pos hlong, if_pos hlong]
        simp
      · rw [if_neg hlong, if_neg hlong]
        by_cases hcloses : Action.closes (h.packet frame s).2 = true
        · simp only [if_pos hcloses]
        · simp only [if_neg hcloses]
          rw [ih (h.packet frame s).1 (log ++ [frame])]
          simp [Outcome.after]

/-! ## Scanning is what a session does -/

theorem splitFrom_dispatch (h : PacketHandler σ) {limit : Nat} (s : σ) (acc : List Action)
    (consumed : Nat) {data : Bytes} (hfit : data.length ≤ limit) :
    Frame.splitFrom h.dispatch (s, acc) consumed data =
      (((h.scan limit s data).state, acc ++ (h.scan limit s data).actions),
        (h.scan limit s data).consumed.map (consumed + ·)) := by
  induction data using Frame.stream_induction generalizing s acc consumed with
  | incomplete data hfront =>
      rw [scan_of_incomplete h limit s hfront, Frame.splitFrom_of_incomplete _ _ _ hfront]
      by_cases hfull : limit ≤ data.length <;> simp [Outcome.consumed, Except.map, hfull]
  | malformed data size hfront =>
      rw [scan_of_malformed h limit s hfront, Frame.splitFrom_of_malformed _ _ _ hfront]
      simp [Outcome.consumed, Except.map]
  | whole data frame rest hfront ih =>
      have happend := congrArg List.length (Frame.append_of_front_eq_whole hfront)
      rw [List.length_append] at happend
      have hdispatch : h.dispatch (s, acc) frame =
          (((h.packet frame s).1, acc ++ (h.packet frame s).2),
            !Action.closes (h.packet frame s).2) := rfl
      rw [scan_of_whole h limit s hfront, Frame.splitFrom_of_whole _ _ _ hfront, hdispatch,
        if_neg (by omega : ¬limit < frame.length)]
      by_cases hcloses : Action.closes (h.packet frame s).2 = true
      · simp [hcloses, Outcome.consumed, Except.map]
      · simp only [(Bool.not_eq_true _).mp hcloses, Bool.not_false, if_true, Bool.false_eq_true,
          if_false]
        rw [ih _ _ _ (by omega), Outcome.after_actions, Outcome.after_state, List.append_assoc]
        -- the frames behind count from where this one ends
        unfold Outcome.consumed
        rw [Outcome.after_verdict]
        split <;> simp [Except.map, Nat.add_assoc]

/-- What a handler makes of all unread bytes, as long as the memory holds them. -/
theorem received_eq_scan (h : PacketHandler σ) {limit : Nat} (s : σ) {data : Bytes}
    (hfit : data.length ≤ limit) :
    h.session.received data s =
      ((h.scan limit s data).state, (h.scan limit s data).actions,
        match (h.scan limit s data).consumed with
        | .ok consumed => (consumed : Int)
        | .error _ => -1) := by
  show h.received data s = _
  rw [received, Frame.split, splitFrom_dispatch h s [] 0 hfit]
  cases (h.scan limit s data).consumed <;> simp [Except.map]

end PacketHandler

namespace Session

variable {σ : Type}

/-- A read of a session whose memory holds the unread and the new bytes does
what scanning these bytes does. -/
theorem receive_of_scan (h : PacketHandler σ) {s : Session σ} (hs : s.Ready) {bytes : Bytes}
    (hfit : bytes.length ≤ s.buffer.free) {o : Outcome σ}
    (ho : h.scan s.buffer.capacity s.state (s.buffer.data ++ bytes) = o) :
    match o.verdict with
    | .connected unread =>
        (s.receive h.session bytes).Ready ∧ (s.receive h.session bytes).state = o.state ∧
          (s.receive h.session bytes).sent = s.sent ++ Action.frames o.actions ∧
          (s.receive h.session bytes).buffer.nominal = s.buffer.nominal ∧
          (s.receive h.session bytes).buffer.data = unread ∧
          0 < (s.receive h.session bytes).buffer.free
    | .ended cause =>
        (s.receive h.session bytes).ClosedWith (h.disconnected o.state)
          (s.sent ++ Action.frames o.actions) ∧
          (cause = .overflow → (s.receive h.session bytes).buffer.free = 0) := by
  subst ho
  have hheld := ReceiveBuffer.length_data_add_free_le hs.wellFormed
  have hlen : (s.buffer.data ++ bytes).length ≤ s.buffer.capacity := by
    rw [List.length_append]
    omega
  have hlimit : Header.length ≤ s.buffer.capacity := by
    have hpos := hs.nominal_pos
    rw [ReceiveBuffer.capacity, ReceiveBuffer.readsHeld, Header.length]
    omega
  obtain ⟨rest, happend, hverdict⟩ :=
    PacketHandler.exists_rest_of_scan h hlimit s.state (s.buffer.data ++ bytes)
  have hcloses := PacketHandler.closes_scan h s.buffer.capacity s.state (s.buffer.data ++ bytes)
  have hreceived := PacketHandler.received_eq_scan h s.state hlen
  generalize h.scan s.buffer.capacity s.state (s.buffer.data ++ bytes) = o at *
  have hopens : o.verdict ≠ .ended .handler → Action.closes o.actions = false := by
    intro hne
    rw [← Bool.not_eq_true, hcloses]
    exact hne
  have hdrop : (s.buffer.data ++ bytes).drop o.frames.flatten.length = rest := by
    rw [← happend, List.drop_left]
  have hvalid : o.frames.flatten.length ≤ (s.buffer.data ++ bytes).length := by
    rw [← happend, List.length_append]
    omega
  cases hv : o.verdict with
  | connected unread =>
      have hopen := hopens (by rw [hv]; exact fun heq => by cases heq)
      rw [hv] at hverdict
      obtain ⟨rfl, hroom, -⟩ := hverdict
      simp only [Outcome.consumed, hv] at hreceived
      have hafter := receive_of_room h.session hs hfit hreceived hopen hvalid
        (by rw [hdrop]; omega)
      rw [hdrop] at hafter
      exact hafter
  | ended cause =>
      rw [hv] at hverdict
      cases cause with
      | handler =>
          refine ⟨receive_of_closes h.session hs hfit hreceived (hcloses.mpr hv), ?_⟩
          exact fun heq => by cases heq
      | malformed error =>
          have hopen := hopens (by rw [hv]; exact fun heq => by cases heq)
          simp only [Outcome.consumed, hv] at hreceived
          refine ⟨receive_of_invalid h.session hs hfit hreceived hopen (by omega), ?_⟩
          exact fun heq => by cases heq
      | overflow =>
          have hopen := hopens (by rw [hv]; exact fun heq => by cases heq)
          simp only [Outcome.consumed, hv] at hreceived
          have hfull : rest.length = s.buffer.capacity := by
            have hsum := congrArg List.length happend
            rw [List.length_append] at hsum
            have hmany := hverdict.1
            omega
          have hafter := receive_of_full h.session hs hfit hreceived hopen hvalid
            (by rw [hdrop]; exact hfull)
          exact ⟨hafter.1, fun _ => hafter.2⟩

end Session

end SessionEngine

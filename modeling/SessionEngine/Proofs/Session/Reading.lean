import SessionEngine.Proofs.ReceiveBuffer.Queue
import SessionEngine.Session.Basic

/-!
# One read of a session

What a read does to a connected session, for any handler. The handler is
shown the unread bytes with the new ones behind them
(`receive_eq_deliver`), and then one of four things happens: the handler
closes the connection, it claims to have consumed bytes that are not there,
it leaves the memory full, or the session goes on with what it left
(`receive_of_closes`, `receive_of_invalid`, `receive_of_full`,
`receive_of_room`).

The first three leave the same kind of session behind, `ClosedWith`; the last
one a session that is `Ready` for another read.
-/

namespace SessionEngine

namespace Session

variable {σ : Type}

/-! ## Sending and closing -/

@[simp] theorem isConnected_eq_true_iff {s : Session σ} :
    s.isConnected = true ↔ s.phase = .connected := by
  simp [isConnected]

theorem send_of_connected {s : Session σ} (hs : s.phase = .connected) (frames : List Bytes) :
    s.send frames = { s with sent := s.sent ++ frames } := by
  rw [send, if_pos (isConnected_eq_true_iff.mpr hs)]

theorem perform_of_not_closes (h : SessionHandler σ) {actions : List Action} {s : Session σ}
    (hs : s.phase = .connected) (hopen : Action.closes actions = false) :
    s.perform h actions = { s with sent := s.sent ++ Action.frames actions } := by
  rw [perform, send_of_connected hs, hopen]
  rfl

/-- The connection is over: the handler knows, and the frames that were
accepted before stay accepted. -/
structure ClosedWith (state : σ) (sent : List Bytes) (s : Session σ) : Prop where
  phase_eq : s.phase = .disconnected
  state_eq : s.state = state
  sent_eq : s.sent = sent

theorem closedWith_disconnect (h : SessionHandler σ) {s : Session σ} (hs : s.phase = .connected) :
    ClosedWith (h.disconnected s.state) s.sent (s.disconnect h) := by
  rw [disconnect, if_pos (isConnected_eq_true_iff.mpr hs)]
  exact ⟨rfl, rfl, rfl⟩

theorem closedWith_perform (h : SessionHandler σ) (actions : List Action) {s : Session σ}
    (hs : s.phase = .connected) (hcloses : Action.closes actions = true) :
    ClosedWith (h.disconnected s.state) (s.sent ++ Action.frames actions)
      (s.perform h actions) := by
  rw [perform, send_of_connected hs, hcloses]
  exact closedWith_disconnect h (s := { s with sent := s.sent ++ Action.frames actions }) hs

/-- Nothing happens to a session that is over. -/
theorem ClosedWith.disconnect {state : σ} {sent : List Bytes} {s : Session σ}
    (hs : s.ClosedWith state sent) (h : SessionHandler σ) : s.disconnect h = s := by
  simp [Session.disconnect, isConnected, hs.phase_eq]

theorem ClosedWith.settle {state : σ} {sent : List Bytes} {s : Session σ}
    (hs : s.ClosedWith state sent) (h : SessionHandler σ) : s.settle h = s := by
  rw [Session.settle, hs.disconnect h, ite_self]

theorem ClosedWith.of_buffer {state : σ} {sent : List Bytes} {s : Session σ}
    (hs : s.ClosedWith state sent) (buffer : ReceiveBuffer) :
    ClosedWith state sent { s with buffer } :=
  ⟨hs.phase_eq, hs.state_eq, hs.sent_eq⟩

theorem ClosedWith.receive {state : σ} {sent : List Bytes} {s : Session σ}
    (hs : s.ClosedWith state sent) (h : SessionHandler σ) (bytes : Bytes) :
    s.receive h bytes = s := by
  simp [Session.receive, isConnected, hs.phase_eq]

/-! ## Between two reads -/

/-- The session waits for bytes. -/
structure Ready (s : Session σ) : Prop where
  phase_eq : s.phase = .connected
  wellFormed : s.buffer.WellFormed
  nominal_pos : 0 < s.buffer.nominal

theorem ready_of_empty {s : Session σ} {readLength : Nat} (hs : s.phase = .connected)
    (hbuffer : s.buffer = .empty readLength) (hpos : 0 < readLength) : s.Ready := by
  refine ⟨hs, ?_, ?_⟩
  · rw [hbuffer]
    exact ReceiveBuffer.wellFormed_empty readLength
  · rw [hbuffer]
    exact hpos

theorem Ready.capacity_pos {s : Session σ} (hs : s.Ready) : 0 < s.buffer.capacity := by
  have hpos := hs.nominal_pos
  rw [ReceiveBuffer.capacity, ReceiveBuffer.readsHeld]
  omega

/-- A read shows the handler all bytes that are unread. -/
theorem receive_eq_deliver (h : SessionHandler σ) {s : Session σ} (hs : s.Ready) {bytes : Bytes}
    (hfit : bytes.length ≤ s.buffer.free) :
    ∃ buffer : ReceiveBuffer, buffer.WellFormed ∧ buffer.nominal = s.buffer.nominal ∧
      buffer.data = s.buffer.data ++ bytes ∧
      s.receive h bytes = { s with buffer }.deliver h := by
  obtain ⟨buffer, hw⟩ := ReceiveBuffer.write?_eq_some hfit
  refine ⟨buffer, ReceiveBuffer.wellFormed_of_write? hs.wellFormed hw,
    ReceiveBuffer.nominal_of_write? hw, ReceiveBuffer.data_of_write? hs.wellFormed hw, ?_⟩
  rw [receive, if_pos (isConnected_eq_true_iff.mpr hs.phase_eq), hw]

/-- What a handler that closes the connection claims to have consumed does
not matter any more. -/
theorem receive_of_closes (h : SessionHandler σ) {s : Session σ} (hs : s.Ready) {bytes : Bytes}
    (hfit : bytes.length ≤ s.buffer.free) {state : σ} {actions : List Action} {consumed : Int}
    (hreceived : h.received (s.buffer.data ++ bytes) s.state = (state, actions, consumed))
    (hcloses : Action.closes actions = true) :
    (s.receive h bytes).ClosedWith (h.disconnected state) (s.sent ++ Action.frames actions) := by
  obtain ⟨buffer, -, -, hdata, heq⟩ := receive_eq_deliver h hs hfit
  rw [heq, deliver]
  simp only [hdata, hreceived]
  have hclosed := closedWith_perform h actions
    (s := ({ s with buffer, state } : Session σ).note .received) hs.phase_eq hcloses
  split
  · split
    · rw [ClosedWith.settle (hclosed.of_buffer _) h]
      exact hclosed.of_buffer _
    · rw [hclosed.disconnect h]
      exact hclosed
  · rw [hclosed.disconnect h]
    exact hclosed

/-- A handler that keeps the connection open but claims to have consumed
bytes that are not there is out of step. -/
theorem receive_of_invalid (h : SessionHandler σ) {s : Session σ} (hs : s.Ready) {bytes : Bytes}
    (hfit : bytes.length ≤ s.buffer.free) {state : σ} {actions : List Action} {consumed : Int}
    (hreceived : h.received (s.buffer.data ++ bytes) s.state = (state, actions, consumed))
    (hopen : Action.closes actions = false)
    (hinvalid : ¬(0 ≤ consumed ∧ consumed ≤ (s.buffer.data ++ bytes).length)) :
    (s.receive h bytes).ClosedWith (h.disconnected state) (s.sent ++ Action.frames actions) := by
  obtain ⟨buffer, hwf, -, hdata, heq⟩ := receive_eq_deliver h hs hfit
  rw [heq, deliver]
  simp only [hdata, hreceived]
  rw [← hdata, ReceiveBuffer.length_data hwf] at hinvalid
  have hshown : (({ s with buffer, state } : Session σ).note .received).phase = .connected :=
    hs.phase_eq
  rw [if_neg hinvalid, perform_of_not_closes h hshown hopen]
  exact closedWith_disconnect h
    (s := { s with
      buffer, state, sent := s.sent ++ Action.frames actions, hooks := s.hooks ++ [.received] })
    hs.phase_eq

/-- What a valid claim leaves of the session, before it is checked for room. -/
theorem receive_of_valid (h : SessionHandler σ) {s : Session σ} (hs : s.Ready) {bytes : Bytes}
    (hfit : bytes.length ≤ s.buffer.free) {state : σ} {actions : List Action} {consumed : Nat}
    (hreceived : h.received (s.buffer.data ++ bytes) s.state = (state, actions, (consumed : Int)))
    (hopen : Action.closes actions = false)
    (hvalid : consumed ≤ (s.buffer.data ++ bytes).length) :
    ∃ s' : Session σ, s'.Ready ∧ s'.state = state ∧ s'.sent = s.sent ++ Action.frames actions ∧
      s'.buffer.nominal = s.buffer.nominal ∧
      s'.buffer.data = (s.buffer.data ++ bytes).drop consumed ∧
      (s'.buffer.free = 0 ↔ s'.buffer.data.length = s'.buffer.capacity) ∧
      s.receive h bytes = s'.settle h := by
  obtain ⟨buffer, hwf, hnominal, hdata, heq⟩ := receive_eq_deliver h hs hfit
  have hsize : consumed ≤ buffer.size := by
    rw [← ReceiveBuffer.length_data hwf, hdata]
    exact hvalid
  obtain ⟨left, hleft⟩ := ReceiveBuffer.consume?_eq_some hsize
  have hwfleft := ReceiveBuffer.wellFormed_of_consume? hwf hleft
  have hnominalleft : left.nominal = s.buffer.nominal :=
    (ReceiveBuffer.nominal_of_consume? hleft).trans hnominal
  have hpos : 0 < left.nominal := by
    rw [hnominalleft]
    exact hs.nominal_pos
  have hdataleft := ReceiveBuffer.data_of_consume? hleft
  refine ⟨{ phase := s.phase, buffer := left.compact, state := state,
            sent := s.sent ++ Action.frames actions, hooks := s.hooks ++ [.received] },
    ⟨hs.phase_eq, ReceiveBuffer.wellFormed_compact hwfleft, ?_⟩, rfl, rfl, ?_, ?_, ?_, ?_⟩
  · rw [ReceiveBuffer.nominal_compact]
    exact hpos
  · rw [ReceiveBuffer.nominal_compact, hnominalleft]
  · rw [ReceiveBuffer.data_compact hwfleft, hdataleft, hdata]
  · rw [ReceiveBuffer.free_compact_eq_zero_iff hwfleft hpos, ReceiveBuffer.data_compact hwfleft,
      ReceiveBuffer.capacity_compact]
  · rw [heq, deliver]
    simp only [hdata, hreceived]
    have hshown : (({ s with buffer, state } : Session σ).note .received).phase = .connected :=
      hs.phase_eq
    rw [if_pos ⟨Int.natCast_nonneg _, Int.ofNat_le.mpr hsize⟩,
      perform_of_not_closes h hshown hopen]
    simp only [Int.toNat_natCast, note, hleft]

/-- Bytes that fill the whole memory and that nobody consumes are the end. -/
theorem receive_of_full (h : SessionHandler σ) {s : Session σ} (hs : s.Ready) {bytes : Bytes}
    (hfit : bytes.length ≤ s.buffer.free) {state : σ} {actions : List Action} {consumed : Nat}
    (hreceived : h.received (s.buffer.data ++ bytes) s.state = (state, actions, (consumed : Int)))
    (hopen : Action.closes actions = false)
    (hvalid : consumed ≤ (s.buffer.data ++ bytes).length)
    (hfull : ((s.buffer.data ++ bytes).drop consumed).length = s.buffer.capacity) :
    (s.receive h bytes).ClosedWith (h.disconnected state) (s.sent ++ Action.frames actions) ∧
      (s.receive h bytes).buffer.free = 0 := by
  obtain ⟨s', hready, rfl, hsent, hnominal, hdata, hfree, heq⟩ :=
    receive_of_valid h hs hfit hreceived hopen hvalid
  have hcap : s'.buffer.capacity = s.buffer.capacity := by
    rw [ReceiveBuffer.capacity, hnominal, ReceiveBuffer.capacity]
  have hzero : s'.buffer.free = 0 := hfree.mpr (by rw [hdata, hfull, hcap])
  rw [heq, settle, if_pos hzero, ← hsent]
  refine ⟨closedWith_disconnect h hready.phase_eq, ?_⟩
  rw [disconnect, if_pos (isConnected_eq_true_iff.mpr hready.phase_eq)]
  exact hzero

/-- Otherwise the session goes on with the bytes that the handler left. -/
theorem receive_of_room (h : SessionHandler σ) {s : Session σ} (hs : s.Ready) {bytes : Bytes}
    (hfit : bytes.length ≤ s.buffer.free) {state : σ} {actions : List Action} {consumed : Nat}
    (hreceived : h.received (s.buffer.data ++ bytes) s.state = (state, actions, (consumed : Int)))
    (hopen : Action.closes actions = false)
    (hvalid : consumed ≤ (s.buffer.data ++ bytes).length)
    (hroom : ((s.buffer.data ++ bytes).drop consumed).length ≠ s.buffer.capacity) :
    (s.receive h bytes).Ready ∧ (s.receive h bytes).state = state ∧
      (s.receive h bytes).sent = s.sent ++ Action.frames actions ∧
      (s.receive h bytes).buffer.nominal = s.buffer.nominal ∧
      (s.receive h bytes).buffer.data = (s.buffer.data ++ bytes).drop consumed ∧
      0 < (s.receive h bytes).buffer.free := by
  obtain ⟨s', hready, hstate, hsent, hnominal, hdata, hfree, heq⟩ :=
    receive_of_valid h hs hfit hreceived hopen hvalid
  have hcap : s'.buffer.capacity = s.buffer.capacity := by
    rw [ReceiveBuffer.capacity, hnominal, ReceiveBuffer.capacity]
  have hne : s'.buffer.free ≠ 0 := by
    intro hzero
    have hfull := hfree.mp hzero
    rw [hdata, hcap] at hfull
    exact hroom hfull
  have hsettle : s'.settle h = s' := by
    rw [settle, if_neg hne]
  rw [heq, hsettle]
  exact ⟨hready, hstate, hsent, hnominal, hdata, by omega⟩

end Session

end SessionEngine

import SessionEngine.Proofs.Connection.Streams

/-!
# What was delivered is scanned

Each side of a connection stands where scanning the bytes that were delivered
to it leads (`Connection.Scans`), and these are the first bytes of what the
other side has put out. A delivery adds to them and leaves everything else
alone (`Scans.deliver`), so nothing has to be known about how the bytes are
cut, nor about the memory of the two sides: where a frame is too long for it,
scanning says so.

A conversation is then understood by scanning the bytes of one side, which
gives the bytes of the other; `PacketHandler.scan_take` does so for a single
frame that is cut anywhere. It comes to its end if both sides stay connected
and put out so many bytes at most (`Scans.exists_quiet`).
-/

namespace SessionEngine

/-! ## One frame -/

namespace PacketHandler

variable {σ : Type} (h : PacketHandler σ) (limit : Nat) {s : σ} {frame : Bytes} {k : Nat}

theorem scan_take_of_lt (hframe : Frame.IsFrame frame) (hk : k < frame.length) :
    h.scan limit s (frame.take k) =
      ⟨s, [], [], if limit ≤ k then .ended .overflow else .connected (frame.take k)⟩ := by
  rw [scan_of_incomplete _ _ _ (hframe.front_take hk), List.length_take,
    Nat.min_eq_left (Nat.le_of_lt hk)]

theorem scan_of_isFrame (hframe : Frame.IsFrame frame)
    (hopen : Action.closes (h.packet frame s).2 = false) :
    h.scan limit s frame =
      if limit < frame.length then ⟨s, [], [], .ended .overflow⟩
      else ⟨(h.packet frame s).1, [frame], (h.packet frame s).2, .connected []⟩ := by
  rw [scan_of_whole _ _ _ hframe]
  split
  next => rfl
  next hfits =>
      have hpos : 0 < frame.length := Nat.lt_of_lt_of_le (by decide) hframe.length_le
      have hroom : ¬ limit ≤ ([] : Bytes).length := by
        rw [List.length_nil]
        omega
      rw [if_neg ((Bool.not_eq_true _).mpr hopen), scan_of_incomplete _ _ _ Frame.front_nil,
        if_neg hroom, Outcome.after, List.append_nil]

/-- A frame that is cut anywhere is shown if it is there, unless it is too long. -/
theorem scan_take (hframe : Frame.IsFrame frame)
    (hopen : Action.closes (h.packet frame s).2 = false) (k : Nat) :
    (∃ verdict, h.scan limit s (frame.take k) = ⟨s, [], [], verdict⟩ ∧
        ∀ unread, verdict = .connected unread → k < frame.length) ∨
      h.scan limit s (frame.take k) =
        ⟨(h.packet frame s).1, [frame], (h.packet frame s).2, .connected []⟩ := by
  by_cases hk : k < frame.length
  · exact Or.inl ⟨_, scan_take_of_lt h limit hframe hk, fun _ _ => hk⟩
  · rw [List.take_of_length_le (Nat.le_of_not_lt hk), scan_of_isFrame h limit hframe hopen]
    split
    next => exact Or.inl ⟨_, rfl, fun _ heq => by cases heq⟩
    next => exact Or.inr rfl

theorem connected_scan_take (hframe : Frame.IsFrame frame) (hfits : frame.length ≤ limit)
    (hopen : Action.closes (h.packet frame s).2 = false) (k : Nat) :
    ∃ unread, (h.scan limit s (frame.take k)).verdict = .connected unread := by
  by_cases hk : k < frame.length
  · rw [scan_take_of_lt h limit hframe hk, if_neg (by omega)]
    exact ⟨_, rfl⟩
  · rw [List.take_of_length_le (Nat.le_of_not_lt hk), scan_of_isFrame h limit hframe hopen,
      if_neg (Nat.not_lt_of_le hfits)]
    exact ⟨_, rfl⟩

end PacketHandler

/-! ## Sessions -/

namespace Session

variable {σ : Type}

/-- The session stands where an outcome of scanning says, and it had sent some
frames before. -/
structure StandsAt (h : PacketHandler σ) (limit : Nat) (greeted : List Bytes) (o : Outcome σ)
    (s : Session σ) : Prop where
  connected : ∀ {unread}, o.verdict = .connected unread →
    s.Ready ∧ s.buffer.capacity = limit ∧ 0 < s.buffer.free ∧ s.buffer.data = unread ∧
      s.state = o.state ∧ s.sent = greeted ++ Action.frames o.actions
  ended : ∀ {cause}, o.verdict = .ended cause →
    s.ClosedWith (h.disconnected o.state) (greeted ++ Action.frames o.actions)

section StandsAt

variable {h : PacketHandler σ} {limit : Nat} {greeted : List Bytes} {o : Outcome σ}
  {s : Session σ}

theorem StandsAt.sent_eq (hs : s.StandsAt h limit greeted o) :
    s.sent = greeted ++ Action.frames o.actions := by
  cases hv : o.verdict with
  | connected unread => exact (hs.connected hv).2.2.2.2.2
  | ended cause => exact (hs.ended hv).sent_eq

theorem StandsAt.isConnected_iff (hs : s.StandsAt h limit greeted o) :
    s.isConnected = true ↔ ∃ unread, o.verdict = .connected unread := by
  rw [isConnected_eq_true_iff]
  cases hv : o.verdict with
  | connected unread =>
      exact ⟨fun _ => ⟨unread, rfl⟩, fun _ => (hs.connected hv).1.phase_eq⟩
  | ended cause =>
      rw [(hs.ended hv).phase_eq]
      refine ⟨fun heq => absurd heq (by decide), ?_⟩
      rintro ⟨unread, heq⟩
      cases heq

/-- A handler that does not care about the end has the state of the scan. -/
theorem StandsAt.state_eq (hs : s.StandsAt h limit greeted o)
    (hend : h.disconnected o.state = o.state) : s.state = o.state := by
  cases hv : o.verdict with
  | connected unread => exact (hs.connected hv).2.2.2.2.1
  | ended cause => exact (hs.ended hv).state_eq.trans hend

/-- One read of a session that waits for bytes. -/
theorem standsAt_receive {more : Bytes} (hready : s.Ready) (hfit : more.length ≤ s.buffer.free) :
    (s.receive h.session more).StandsAt h s.buffer.capacity s.sent
      (h.scan s.buffer.capacity s.state (s.buffer.data ++ more)) := by
  have hread := receive_of_scan h hready hfit rfl
  generalize h.scan s.buffer.capacity s.state (s.buffer.data ++ more) = o at hread
  refine ⟨?_, ?_⟩
  · intro unread hv
    rw [hv] at hread
    obtain ⟨hready', hstate, hsent, hnominal, hdata, hfree⟩ := hread
    refine ⟨hready', ?_, hfree, hdata, hstate, hsent⟩
    rw [ReceiveBuffer.capacity, hnominal, ReceiveBuffer.capacity]
  · intro cause hv
    rw [hv] at hread
    exact hread.1

/-- What was asked for before counts as well. -/
theorem StandsAt.after {frames : List Bytes} {actions : List Action}
    (hopen : Action.closes actions = false)
    (hs : s.StandsAt h limit (greeted ++ Action.frames actions) o) :
    s.StandsAt h limit greeted { o with frames := frames, actions := actions ++ o.actions } := by
  refine ⟨?_, ?_⟩
  · intro unread hv
    obtain ⟨hready, hcapacity, hfree, hdata, hstate, hsent⟩ := hs.connected hv
    refine ⟨hready, hcapacity, hfree, hdata, hstate, ?_⟩
    rw [hsent, Action.frames_append _ hopen, List.append_assoc]
  · intro cause hv
    have hclosed := hs.ended hv
    rw [List.append_assoc, ← Action.frames_append _ hopen] at hclosed
    exact hclosed

/-- Where nothing can be held, nothing is ever shown. -/
theorem exists_scan_zero (h : PacketHandler σ) (start : σ) (bytes : Bytes) :
    ∃ cause, h.scan 0 start bytes = ⟨start, [], [], .ended cause⟩ := by
  cases hfront : Frame.front bytes with
  | incomplete =>
      refine ⟨.overflow, ?_⟩
      rw [PacketHandler.scan_of_incomplete _ _ _ hfront, if_pos (Nat.zero_le _)]
  | malformed size => exact ⟨_, PacketHandler.scan_of_malformed _ _ _ hfront⟩
  | whole frame rest =>
      have hlength := Frame.le_length_of_front_eq_whole hfront
      refine ⟨.overflow, ?_⟩
      rw [PacketHandler.scan_of_whole _ _ _ hfront,
        if_pos (Nat.lt_of_lt_of_le (by decide) hlength)]

/-- A read takes the scan up again. -/
theorem StandsAt.receive {start : σ} {bytes more : Bytes}
    (hlimit : limit = 0 ∨ Header.length ≤ limit)
    (hs : s.StandsAt h limit greeted (h.scan limit start bytes))
    (hfit : more.length ≤ s.buffer.free) :
    (s.receive h.session more).StandsAt h limit greeted (h.scan limit start (bytes ++ more)) ∧
      ∃ new, (s.receive h.session more).sent = s.sent ++ new := by
  rcases hlimit with rfl | hlimit
  · obtain ⟨cause, hscan⟩ := exists_scan_zero h start bytes
    obtain ⟨cause', hscan'⟩ := exists_scan_zero h start (bytes ++ more)
    rw [hscan] at hs
    have hclosed := hs.ended rfl
    rw [hscan', hclosed.receive]
    refine ⟨⟨?_, fun _ => hclosed⟩, [], (List.append_nil _).symm⟩
    exact fun heq => by cases heq
  · have hcloses := PacketHandler.closes_scan h limit start bytes
    rw [PacketHandler.scan_append h hlimit, PacketHandler.resume]
    generalize h.scan limit start bytes = o at *
    cases hv : o.verdict with
    | connected unread =>
        obtain ⟨hready, rfl, -, rfl, hstate, hsent⟩ := hs.connected hv
        have hopen : Action.closes o.actions = false := by
          rw [← Bool.not_eq_true, hcloses, hv]
          exact fun heq => by cases heq
        have hread := standsAt_receive (h := h) hready hfit
        rw [hstate] at hread
        refine ⟨StandsAt.after hopen ?_, _, hread.sent_eq⟩
        rw [← hsent]
        exact hread
    | ended cause =>
        dsimp only
        rw [(hs.ended hv).receive]
        exact ⟨hs, [], (List.append_nil _).symm⟩

end StandsAt

end Session

/-! ## Connections -/

namespace Side

variable {σ : Type}

theorem standsAt_opened {h : PacketHandler σ} {s greeted : σ} {actions : List Action}
    (readLength : Nat) (hconnected : h.connected s = (greeted, actions))
    (hopen : Action.closes actions = false) :
    (opened h.session readLength s).session.StandsAt h (10 * readLength) (Action.frames actions)
      (h.scan (10 * readLength) greeted []) := by
  rw [PacketHandler.scan_of_incomplete _ _ _ Frame.front_nil]
  rcases Nat.eq_zero_or_pos readLength with rfl | hlength
  · -- a session that can never read anything ends at once
    have hfull : 10 * 0 ≤ ([] : Bytes).length := Nat.le_refl 0
    rw [if_pos hfull, session_opened 0 hconnected hopen, Session.settle, if_pos (by rfl)]
    refine ⟨(fun heq => by cases heq), fun _ => ?_⟩
    rw [Action.frames, List.append_nil]
    exact Session.closedWith_disconnect h.session
      (s := ⟨.connected, .empty 0, greeted, Action.frames actions, [.connected]⟩) rfl
  · have hroom : ¬ 10 * readLength ≤ ([] : Bytes).length := by
      rw [List.length_nil]
      omega
    rw [session_opened_of_open hlength hconnected hopen, if_neg hroom]
    refine ⟨?_, fun heq => by cases heq⟩
    intro unread heq
    obtain rfl := Verdict.connected.inj heq
    refine ⟨Session.ready_of_empty rfl rfl hlength, rfl, ?_, rfl, rfl, ?_⟩
    · rw [ReceiveBuffer.free, ReceiveBuffer.capacity, ReceiveBuffer.readsHeld]
      show 0 < 10 * readLength - 0
      omega
    · rw [Action.frames, List.append_nil]

end Side

namespace Connection

variable {σ τ : Type}

/-- Each side stands where scanning the bytes delivered to it leads. -/
structure Scans (hn : PacketHandler σ) (hf : PacketHandler τ) (s : σ) (t : τ)
    (greeted greeted' : List Bytes) (readLength readLength' : Nat) (c : Connection σ τ) :
    Prop where
  near_handler : c.near.handler = hn.session
  far_handler : c.far.handler = hf.session
  near_taken : c.near.taken ≤ c.far.output.length
  far_taken : c.far.taken ≤ c.near.output.length
  near : c.near.session.StandsAt hn (10 * readLength) greeted
    (hn.scan (10 * readLength) s (c.far.output.take c.near.taken))
  far : c.far.session.StandsAt hf (10 * readLength') greeted'
    (hf.scan (10 * readLength') t (c.near.output.take c.far.taken))

section Scans

variable {hn : PacketHandler σ} {hf : PacketHandler τ} {s : σ} {t : τ}
  {greeted greeted' : List Bytes} {readLength readLength' : Nat} {c c' : Connection σ τ}

theorem Scans.swap (h : c.Scans hn hf s t greeted greeted' readLength readLength') :
    c.swap.Scans hf hn t s greeted' greeted readLength' readLength :=
  ⟨h.far_handler, h.near_handler, h.far_taken, h.near_taken, h.far, h.near⟩

/-- What the far side puts out later is behind what was delivered of it. -/
theorem Scans.deliver {n : Nat}
    (h : c.Scans hn hf s t greeted greeted' readLength readLength')
    (hdeliver : c.deliver? n = some c') :
    c'.Scans hn hf s t greeted greeted' readLength readLength' ∧ c'.near = c.near ∧
      c.far.taken < c'.far.taken := by
  obtain ⟨hpos, hthere, hfree, htaken, rfl, hcount⟩ := deliver?_eq_some hdeliver
  have hbytes : c.near.output.take (c.far.taken + n) =
      c.near.output.take c.far.taken ++ c.underWay.take n := by
    rw [underWay, List.take_add]
  have hsession : (c.far.receive (c.underWay.take n)).session =
      c.far.session.receive hf.session (c.underWay.take n) := by
    rw [Side.receive, h.far_handler]
  have hlimit : 10 * readLength' = 0 ∨ Header.length ≤ 10 * readLength' := by
    rw [Header.length]
    omega
  obtain ⟨hstands, new, hsent⟩ := h.far.receive hlimit (by rw [htaken]; exact hfree)
  rw [← hsession] at hstands hsent
  have houtput : (c.far.receive (c.underWay.take n)).output = c.far.output ++ new.flatten := by
    rw [Side.output, hsent, List.flatten_append, Side.output]
  refine ⟨⟨h.near_handler, h.far_handler, ?_, ?_, ?_, ?_⟩, rfl, ?_⟩
  · rw [houtput, List.length_append]
    exact Nat.le_trans h.near_taken (Nat.le_add_right _ _)
  · rw [hcount]
    exact hthere
  · rw [houtput, List.take_append_of_le_length h.near_taken]
    exact h.near
  · rw [hcount, hbytes]
    exact hstands
  · rw [hcount]
    omega

theorem Scans.step {step : Step σ τ}
    (h : c.Scans hn hf s t greeted greeted' readLength readLength')
    (hdelivery : step.IsDelivery) (hstep : c.step? step = some c') :
    c'.Scans hn hf s t greeted greeted' readLength readLength' ∧
      c.near.taken + c.far.taken < c'.near.taken + c'.far.taken := by
  cases step with
  | toFar n =>
      obtain ⟨hscans, hnear, hmore⟩ := h.deliver hstep
      refine ⟨hscans, ?_⟩
      rw [hnear]
      omega
  | toNear n =>
      obtain ⟨back, hback, rfl⟩ := Option.map_eq_some_iff.mp hstep
      obtain ⟨hscans, hfar, hmore⟩ := h.swap.deliver hback
      refine ⟨hscans.swap, ?_⟩
      have hkept : back.near.taken = c.far.taken := congrArg Side.taken hfar
      show c.near.taken + c.far.taken < back.far.taken + back.near.taken
      have hmore' : c.near.taken < back.far.taken := hmore
      omega
  | near f => cases hdelivery
  | far f => cases hdelivery

theorem Scans.run {steps : List (Step σ τ)}
    (h : c.Scans hn hf s t greeted greeted' readLength readLength')
    (hdeliveries : ∀ step ∈ steps, step.IsDelivery) (hrun : c.run? steps = some c') :
    c'.Scans hn hf s t greeted greeted' readLength readLength' :=
  keeps_run (fun hc hdelivery hstep => (Scans.step hc hdelivery hstep).1) h
    hdeliveries hrun

/-- As long as something is under way between two sides that are connected, it
can be delivered. -/
theorem Scans.quiet_or_step (h : c.Scans hn hf s t greeted greeted' readLength readLength')
    (hnear : c.near.session.isConnected = true) (hfar : c.far.session.isConnected = true) :
    c.Quiet ∨ ∃ step c', step.IsDelivery ∧ c.step? step = some c' := by
  by_cases hthere : c.underWay = []
  · by_cases hback : c.swap.underWay = []
    · exact Or.inl ⟨hthere, hback⟩
    · obtain ⟨unread, hv⟩ := h.near.isConnected_iff.mp hnear
      obtain ⟨back, hdeliver⟩ := exists_deliver (c := c.swap) (h.near.connected hv).2.2.1 hback
      refine Or.inr ⟨.toNear 1, back.swap, trivial, ?_⟩
      rw [step?, hdeliver]
      rfl
  · obtain ⟨unread, hv⟩ := h.far.isConnected_iff.mp hfar
    obtain ⟨c', hdeliver⟩ := exists_deliver (h.far.connected hv).2.2.1 hthere
    exact Or.inr ⟨.toFar 1, c', trivial, hdeliver⟩

theorem Scans.exists_quiet {bound : Nat}
    (hstays : ∀ {c : Connection σ τ}, c.Scans hn hf s t greeted greeted' readLength readLength' →
      c.near.session.isConnected = true ∧ c.far.session.isConnected = true ∧
        c.near.output.length + c.far.output.length ≤ bound)
    (h : c.Scans hn hf s t greeted greeted' readLength readLength') :
    ∃ steps c', (∀ step ∈ steps, step.IsDelivery) ∧ c.run? steps = some c' ∧ c'.Quiet := by
  refine exists_run (P := fun left c => bound - (c.near.taken + c.far.taken) = left ∧
    c.Scans hn hf s t greeted greeted' readLength readLength') ?_ ⟨rfl, h⟩
  rintro _ c ⟨rfl, hnow⟩
  obtain ⟨hnear, hfar, -⟩ := hstays hnow
  rcases hnow.quiet_or_step hnear hfar with hquiet | ⟨step, c₁, hdelivery, hstep⟩
  · exact Or.inl hquiet
  · obtain ⟨hafter, hmore⟩ := hnow.step hdelivery hstep
    obtain ⟨-, -, hbound⟩ := hstays hafter
    have hnearTaken := hafter.near_taken
    have hfarTaken := hafter.far_taken
    exact Or.inr ⟨step, c₁, hdelivery, hstep, _, by omega, rfl, hafter⟩

end Scans

/-- Two sides whose handlers greet and keep the connection open. -/
theorem scans_opened {hn : PacketHandler σ} {hf : PacketHandler τ} {s s' : σ} {t t' : τ}
    {actions actions' : List Action} (readLength readLength' : Nat)
    (hnear : hn.connected s = (s', actions)) (hfar : hf.connected t = (t', actions'))
    (hopen : Action.closes actions = false) (hopen' : Action.closes actions' = false) :
    (Connection.mk (Side.opened hn.session readLength s)
      (Side.opened hf.session readLength' t)).Scans hn hf s' t' (Action.frames actions)
        (Action.frames actions') readLength readLength' :=
  ⟨rfl, rfl, Nat.zero_le _, Nat.zero_le _, Side.standsAt_opened readLength hnear hopen,
    Side.standsAt_opened readLength' hfar hopen'⟩

end Connection

end SessionEngine

import SessionEngine.Proofs.Session.Life

/-!
# The calls of a handler

`PacketHandler.traced` is a handler that also writes down how it is called and
what it answers. It leads the session it would lead without that (`traced_shows`
and `map_run`), so what the calls come to (`Talk`) holds of every handler:
frames are shown as long as no answer has closed the connection, also in the
middle of a read, and nothing comes after the call that tells of the end. The
state of a handler is what its calls have made of the first one
(`state_run_traced`).

`lived_run` puts the life of a session together.
-/

namespace SessionEngine

/-- A call of a handler, and what it asked for. -/
inductive Call where
  | connected (actions : List Action)
  | connectFailed (failure : ConnectFailure)
  | packet (frame : Bytes) (actions : List Action)
  | disconnected
deriving DecidableEq

/-- The calls on an open connection, and whether the last of them closes it. -/
inductive Dialogue : List Call → Bool → Prop where
  | connected (actions : List Action) :
      Dialogue [.connected actions] (Action.closes actions)
  | packet {calls : List Call} (h : Dialogue calls false) (frame : Bytes) (actions : List Action) :
      Dialogue (calls ++ [.packet frame actions]) (Action.closes actions)

/-- The calls in a phase of a session. -/
inductive Talk : Phase → List Call → Prop where
  | silent {phase : Phase} (h : phase ≠ .connected) : Talk phase []
  | failed (failure : ConnectFailure) : Talk .disconnected [.connectFailed failure]
  | connected {calls : List Call} (h : Dialogue calls false) : Talk .connected calls
  | disconnected {calls : List Call} {closed : Bool} (h : Dialogue calls closed) :
      Talk .disconnected (calls ++ [.disconnected])

theorem Talk.dialogue {calls : List Call} (h : Talk .connected calls) : Dialogue calls false := by
  cases h with
  | silent h => exact absurd rfl h
  | connected h => exact h

namespace PacketHandler

variable {σ : Type}

def traced (h : PacketHandler σ) : PacketHandler (σ × List Call) where
  connected s :=
    let (state, actions) := h.connected s.1
    ((state, s.2 ++ [.connected actions]), actions)
  connectFailed failure s := (h.connectFailed failure s.1, s.2 ++ [.connectFailed failure])
  packet frame s :=
    let (state, actions) := h.packet frame s.1
    ((state, s.2 ++ [.packet frame actions]), actions)
  disconnected s := (h.disconnected s.1, s.2 ++ [.disconnected])

/-- Writing down changes nothing. -/
theorem traced_shows (h : PacketHandler σ) :
    SessionHandler.Shows Prod.fst h.traced.session h.session :=
  shows_session (fun _ => rfl) (fun _ _ => rfl) (fun _ _ => rfl) (fun _ => rfl)

/-- The state behind a call. -/
def called (h : PacketHandler σ) (s : σ) : Call → σ
  | .connected _ => (h.connected s).1
  | .connectFailed failure => h.connectFailed failure s
  | .packet frame _ => (h.packet frame s).1
  | .disconnected => h.disconnected s

theorem keeps_called (h : PacketHandler σ) (start : σ) :
    h.traced.session.Keeps fun s => s.1 = s.2.foldl h.called start := by
  refine keeps_session (fun s hs => ?_) (fun failure s hs => ?_) (fun frame s hs => ?_)
    fun s hs => ?_
  all_goals
    show _ = (s.2 ++ [_]).foldl h.called start
    rw [List.foldl_append, ← hs]
    rfl

/-- No frame of a read is shown behind one whose answer closes the connection. -/
theorem dialogue_received (h : PacketHandler σ) {s : σ × List Call} (hs : Dialogue s.2 false)
    (data : Bytes) :
    Dialogue (h.traced.received data s).1.2 (Action.closes (h.traced.received data s).2.1) := by
  have hsplit : ∀ (acc : (σ × List Call) × List Action) (consumed : Nat),
      Dialogue acc.1.2 false → Action.closes acc.2 = false →
      Dialogue (Frame.splitFrom h.traced.dispatch acc consumed data).1.1.2
        (Action.closes (Frame.splitFrom h.traced.dispatch acc consumed data).1.2) := by
    induction data using Frame.stream_induction with
    | incomplete data hfront =>
        intro acc consumed hcalls hopen
        rw [Frame.splitFrom_of_incomplete _ _ _ hfront, hopen]
        exact hcalls
    | malformed data size hfront =>
        intro acc consumed hcalls hopen
        rw [Frame.splitFrom_of_malformed _ _ _ hfront, hopen]
        exact hcalls
    | whole data frame rest hfront ih =>
        intro acc consumed hcalls hopen
        have hshown := hcalls.packet frame (h.packet frame acc.1.1).2
        have hcloses :
            Action.closes (h.traced.dispatch acc frame).1.2 =
              Action.closes (h.packet frame acc.1.1).2 := by
          show Action.closes (acc.2 ++ (h.packet frame acc.1.1).2) = _
          rw [Action.closes_append, hopen, Bool.false_or]
        rw [Frame.splitFrom_of_whole _ _ _ hfront]
        split
        next hgoes =>
            have hstays : Action.closes (h.packet frame acc.1.1).2 = false :=
              (Bool.not_eq_true' _).mp hgoes
            rw [hstays] at hshown hcloses
            exact ih _ _ hshown hcloses
        next =>
            dsimp only
            rw [hcloses]
            exact hshown
  have hall := hsplit (s, []) 0 hs rfl
  rw [received, Frame.split]
  generalize Frame.splitFrom h.traced.dispatch (s, []) 0 data = result at hall
  obtain ⟨⟨state, actions⟩, consumed | error⟩ := result <;> exact hall

end PacketHandler

namespace Session

variable {σ τ : Type}

/-! ## The same session -/

section Showing

variable {f : σ → τ} {h : SessionHandler σ} {g : SessionHandler τ}

theorem map_connect (f : σ → τ) (s : Session σ) :
    (s.map f).connect = (s.connect.1, s.connect.2.map f) := by
  have hphase : (s.map f).phase = s.phase := rfl
  rw [connect, connect, hphase]
  split <;> rfl

theorem map_step (hshows : h.Shows f g) (event : Event) (s : Session σ) :
    (s.step h event).map f = (s.map f).step g event := by
  cases event with
  | connect => exact (congrArg Prod.snd (map_connect f s)).symm
  | accept admitted =>
      show (s.accept h admitted).map f = (s.map f).accept g admitted
      rw [accept, accept, map_connect]
      dsimp only
      split
      · exact map_opened hshows admitted s.connect.2
      · rfl
  | opened admitted => exact map_opened hshows admitted s
  | openFailed failure => exact map_openFailed hshows failure s
  | receive bytes => exact map_receive hshows bytes s
  | endOfStream | disconnect => exact map_disconnect hshows s
  | send frames => exact map_send frames s

theorem map_run (hshows : h.Shows f g) (events : List Event) (s : Session σ) :
    (s.run h events).map f = (s.map f).run g events := by
  induction events generalizing s with
  | nil => rfl
  | cons event events ih => rw [run_cons, run_cons, ih, map_step hshows]

end Showing

/-! ## What the calls come to -/

/-- The calls of a session are as its phase says. -/
def Talks (s : Session (σ × List Call)) : Prop := Talk s.phase s.state.2

section Talking

variable {h : PacketHandler σ} {s : Session (σ × List Call)}

theorem Talks.disconnect (hs : s.Talks) : (s.disconnect h.traced.session).Talks := by
  rw [Session.disconnect]
  split
  next hconnected =>
      rw [Talks, isConnected_eq_true_iff.mp hconnected] at hs
      exact .disconnected hs.dialogue
  next => exact hs

theorem Talks.settle (hs : s.Talks) : (s.settle h.traced.session).Talks := by
  rw [Session.settle]
  split
  · exact hs.disconnect
  · exact hs

theorem talks_perform (hs : s.phase = .connected) {actions : List Action}
    (hcalls : Dialogue s.state.2 (Action.closes actions)) :
    (s.perform h.traced.session actions).Talks := by
  have hsent : (s.send (Action.frames actions)).isConnected = true := by
    rw [isConnected_eq_true_iff, phase_send]
    exact hs
  rw [perform]
  split
  · rw [disconnect, if_pos hsent]
    rw [← state_send (Action.frames actions) s] at hcalls
    exact .disconnected hcalls
  next hopen =>
    rw [Talks, phase_send, state_send, hs]
    rw [(Bool.not_eq_true _).mp hopen] at hcalls
    exact .connected hcalls

theorem talks_deliver (hs : s.phase = .connected) (hcalls : Dialogue s.state.2 false) :
    (s.deliver h.traced.session).Talks := by
  have hshown := h.dialogue_received hcalls s.buffer.data
  have hreceived : h.traced.session.received s.buffer.data s.state =
    h.traced.received s.buffer.data s.state := rfl
  rw [deliver, hreceived]
  generalize h.traced.received s.buffer.data s.state = reaction at hshown
  obtain ⟨state, actions, consumed⟩ := reaction
  have hperformed : (({ s with state }.note .received).perform h.traced.session actions).Talks :=
    talks_perform (s := { s with state }.note .received) hs hshown
  dsimp only
  generalize ({ s with state }.note .received).perform h.traced.session actions = performed
    at hperformed ⊢
  split
  · split
    next buffer _ =>
      exact Talks.settle (s := { performed with buffer := buffer.compact }) hperformed
    next => exact hperformed.disconnect
  · exact hperformed.disconnect

theorem Talks.receive (hs : s.Talks) (bytes : Bytes) :
    (s.receive h.traced.session bytes).Talks := by
  rw [Session.receive]
  split
  next hconnected =>
      have hphase := isConnected_eq_true_iff.mp hconnected
      split
      next buffer _ =>
          rw [Talks, hphase] at hs
          exact talks_deliver (s := { s with buffer }) hphase hs.dialogue
      next => exact hs.disconnect
  next => exact hs

/-- Before a connection is there, nobody is called. -/
theorem Talks.eq_nil (hs : s.Talks) (hphase : s.phase = .new ∨ s.phase = .connecting) :
    s.state.2 = [] := by
  rw [Talks] at hs
  generalize s.phase = phase, s.state.2 = calls at *
  cases hs with
  | silent => rfl
  | failed | connected | disconnected => rcases hphase with hphase | hphase <;> cases hphase

theorem Talks.connect (hs : s.Talks) : s.connect.2.Talks := by
  rw [Session.connect]
  split
  next hnew =>
      have hnone : s.state.2 = [] := hs.eq_nil (.inl hnew)
      show Talk .connecting s.state.2
      rw [hnone]
      exact .silent Phase.noConfusion
  next => exact hs

theorem Talks.opened (hs : s.Talks) (admitted : Bool) :
    (s.opened h.traced.session admitted).Talks := by
  rw [Session.opened]
  split
  next hconnecting =>
      have hnone : s.state.2 = [] := hs.eq_nil (.inr hconnecting)
      split
      · refine (talks_perform rfl ?_).settle
        show Dialogue (s.state.2 ++ [_]) _
        rw [hnone]
        exact .connected _
      · show Talk .disconnected s.state.2
        rw [hnone]
        exact .silent Phase.noConfusion
  next => exact hs

theorem Talks.openFailed (hs : s.Talks) (failure : ConnectFailure) :
    (s.openFailed h.traced.session failure).Talks := by
  rw [Session.openFailed]
  split
  next hconnecting =>
      have hnone : s.state.2 = [] := hs.eq_nil (.inr hconnecting)
      show Talk .disconnected (s.state.2 ++ [_])
      rw [hnone]
      exact .failed failure
  next => exact hs

theorem Talks.step (hs : s.Talks) (event : Event) : (s.step h.traced.session event).Talks := by
  cases event with
  | connect => exact hs.connect
  | accept admitted =>
      show (s.accept h.traced.session admitted).Talks
      rw [accept]
      split
      · exact hs.connect.opened admitted
      · exact hs
  | opened admitted => exact hs.opened admitted
  | openFailed failure => exact hs.openFailed failure
  | receive bytes => exact hs.receive bytes
  | endOfStream | disconnect => exact hs.disconnect
  | send frames =>
      show Talk (s.send frames).phase (s.send frames).state.2
      rw [phase_send, state_send]
      exact hs

theorem Talks.run (hs : s.Talks) (events : List Event) : (s.run h.traced.session events).Talks := by
  induction events generalizing s with
  | nil => exact hs
  | cons event events ih => exact ih (hs.step event)

end Talking

/-! ## What the calls make of the state -/

section Keeping

variable {h : SessionHandler σ} {P : σ → Prop} {s : Session σ}

theorem keeps_step (hkeeps : h.Keeps P) (hs : P s.state) (event : Event) :
    P (s.step h event).state := by
  have hconnect : P s.connect.2.state := by
    rw [connect]
    split <;> exact hs
  cases event with
  | connect => exact hconnect
  | accept admitted =>
      show P (s.accept h admitted).state
      rw [accept]
      split
      · exact keeps_opened hkeeps hconnect admitted
      · exact hs
  | opened admitted => exact keeps_opened hkeeps hs admitted
  | openFailed failure => exact keeps_openFailed hkeeps hs failure
  | receive bytes => exact keeps_receive hkeeps hs bytes
  | endOfStream | disconnect => exact keeps_disconnect hkeeps hs
  | send frames =>
      show P (s.send frames).state
      rw [state_send]
      exact hs

theorem keeps_run (hkeeps : h.Keeps P) (hs : P s.state) (events : List Event) :
    P (s.run h events).state := by
  induction events generalizing s with
  | nil => exact hs
  | cons event events ih => exact ih (keeps_step hkeeps hs event)

end Keeping

/-- The state of a handler is what its calls have made of the first one. -/
theorem state_run_traced (h : PacketHandler σ) (readLength : Nat) (state : σ)
    (events : List Event) :
    ((create readLength (state, [])).run h.traced.session events).state.1 =
      ((create readLength (state, [])).run h.traced.session events).state.2.foldl h.called state :=
  keeps_run (h.keeps_called state) rfl events

/-! ## The whole life -/

/-- What has become of a new session by some events. -/
structure Lived (h : SessionHandler σ) (start : Session σ) (events : List Event) : Prop where
  /-- The hooks were called in the order of the phases. -/
  life : Life (start.run h events).phase (start.run h events).hooks
  /-- The phases only go forward from here. -/
  forward : ∀ more, (start.run h events).phase.rank ≤ ((start.run h events).run h more).phase.rank
  /-- The session was connected or accepted once, or not at all. -/
  attempts_eq : start.attempts h events = if (start.run h events).phase = .new then 0 else 1
  /-- The handler is told of the end of a connection that it was told of. -/
  told : Hook.disconnected ∈ (start.run h events).hooks ↔
    (start.run h events).phase = .disconnected ∧ Hook.connected ∈ (start.run h events).hooks
  /-- A hook that closes the connection can ask for nothing behind that. -/
  cut : ∀ before after, (start.run h events).perform h (before ++ .disconnect :: after) =
    (start.run h events).perform h (before ++ [.disconnect])
  /-- After the end nothing happens, whoever tries: nothing more is sent. -/
  ended : (start.run h events).phase = .disconnected →
    (∀ more, (start.run h events).run h more = start.run h events) ∧
      ∀ actions, (start.run h events).perform h actions = start.run h events

/-- Every new session lives as it should, and handlers for frames are called
as they should be, whatever happens. -/
theorem lived_run (readLength : Nat) (state : σ) (events : List Event) :
    (∀ h : SessionHandler σ, Lived h (create readLength state) events) ∧
      ∀ h : PacketHandler σ,
        ((create readLength (state, [])).run h.traced.session events).map Prod.fst =
            (create readLength state).run h.session events ∧
          Talk ((create readLength (state, [])).run h.traced.session events).phase
            ((create readLength (state, [])).run h.traced.session events).state.2 := by
  refine ⟨fun h => ?_, fun h => ⟨map_run h.traced_shows events _, ?_⟩⟩
  · have hlife : Life ((create readLength state).run h events).phase
        ((create readLength state).run h events).hooks :=
      Life.new.moves (moves_run h (s := create readLength state) events)
    exact {
      life := hlife
      forward := fun more => rank_le_of_moves (moves_run h more)
      attempts_eq := attempts_of_new rfl events
      told := hlife.disconnected_mem_iff
      cut := perform_disconnect
      ended := fun hended => ⟨run_of_disconnected hended, perform_of_disconnected hended⟩ }
  · have hnew : (create readLength (state, ([] : List Call))).Talks := .silent Phase.noConfusion
    exact hnew.run events

end Session

end SessionEngine

import SessionEngine.Proofs.Frame.Splitting
import SessionEngine.Proofs.Session.Stream

/-!
# What a session does to the state of its handler

A session changes the state of its handler by calling the hooks, and in no
other way. So what every hook keeps, every operation of the session keeps
(`SessionHandler.Keeps`), and a handler that only writes down what another one
does leads the same session (`SessionHandler.Shows`).

A session that is connected stays so or calls the last hook, after which the
state is not touched any more (`Session.Attended`).
-/

namespace SessionEngine

/-! ## What hooks keep -/

variable {σ τ : Type}

/-- All hooks keep a property of the state. -/
structure SessionHandler.Keeps (h : SessionHandler σ) (P : σ → Prop) : Prop where
  connected : ∀ s, P s → P (h.connected s).1
  connectFailed : ∀ failure s, P s → P (h.connectFailed failure s)
  received : ∀ data s, P s → P (h.received data s).1
  disconnected : ∀ s, P s → P (h.disconnected s)

/-- A handler for frames keeps what it keeps with each frame. -/
theorem PacketHandler.keeps_session {h : PacketHandler σ} {P : σ → Prop}
    (hconnected : ∀ s, P s → P (h.connected s).1)
    (hfailed : ∀ failure s, P s → P (h.connectFailed failure s))
    (hpacket : ∀ frame s, P s → P (h.packet frame s).1)
    (hdisconnected : ∀ s, P s → P (h.disconnected s)) : h.session.Keeps P := by
  refine ⟨hconnected, hfailed, fun data s hs => ?_, hdisconnected⟩
  have hsplit : P (Frame.split h.dispatch (s, []) data).1.1 :=
    Frame.splitFrom_keeps (P := fun acc : σ × List Action => P acc.1)
      (fun acc frame hacc => hpacket frame acc.1 hacc) hs 0 data
  show P (h.received data s).1
  rw [received]
  split
  next heq =>
      rw [heq] at hsplit
      exact hsplit
  next heq =>
      rw [heq] at hsplit
      exact hsplit

namespace Session

section Keeping

variable {h : SessionHandler σ} {P : σ → Prop} {s : Session σ}

@[simp] theorem state_send (frames : List Bytes) (s : Session σ) :
    (s.send frames).state = s.state := by
  rw [send]
  split <;> rfl

@[simp] theorem phase_send (frames : List Bytes) (s : Session σ) :
    (s.send frames).phase = s.phase := by
  rw [send]
  split <;> rfl

theorem keeps_disconnect (hkeeps : h.Keeps P) (hs : P s.state) : P (s.disconnect h).state := by
  rw [disconnect]
  split
  · exact hkeeps.disconnected _ hs
  · exact hs

theorem keeps_perform (hkeeps : h.Keeps P) (hs : P s.state) (actions : List Action) :
    P (s.perform h actions).state := by
  have hsent : P (s.send (Action.frames actions)).state := by
    rw [state_send]
    exact hs
  rw [perform]
  split
  · exact keeps_disconnect hkeeps hsent
  · exact hsent

theorem keeps_settle (hkeeps : h.Keeps P) (hs : P s.state) : P (s.settle h).state := by
  rw [settle]
  split
  · exact keeps_disconnect hkeeps hs
  · exact hs

theorem keeps_opened (hkeeps : h.Keeps P) (hs : P s.state) (admitted : Bool) :
    P (s.opened h admitted).state := by
  rw [opened]
  split
  · split
    · exact keeps_settle hkeeps (keeps_perform hkeeps (hkeeps.connected _ hs) _)
    · exact hs
  · exact hs

theorem keeps_openFailed (hkeeps : h.Keeps P) (hs : P s.state) (failure : ConnectFailure) :
    P (s.openFailed h failure).state := by
  rw [openFailed]
  split
  · exact hkeeps.connectFailed failure _ hs
  · exact hs

theorem keeps_deliver (hkeeps : h.Keeps P) (hs : P s.state) : P (s.deliver h).state := by
  have hshown := hkeeps.received s.buffer.data s.state hs
  rw [deliver]
  generalize h.received s.buffer.data s.state = reaction at hshown
  obtain ⟨state, actions, consumed⟩ := reaction
  have hperformed := keeps_perform hkeeps (s := { s with state }.note .received) hshown actions
  dsimp only
  split
  · split
    next buffer _ =>
        exact keeps_settle hkeeps
          (s := { ({ s with state }.note .received).perform h actions with
            buffer := buffer.compact })
          hperformed
    next => exact keeps_disconnect hkeeps hperformed
  · exact keeps_disconnect hkeeps hperformed

theorem keeps_receive (hkeeps : h.Keeps P) (hs : P s.state) (bytes : Bytes) :
    P (s.receive h bytes).state := by
  rw [receive]
  split
  · split
    next buffer _ => exact keeps_deliver hkeeps (s := { s with buffer }) hs
    next => exact keeps_disconnect hkeeps hs
  · exact hs

theorem keeps_act {α : Type} (hkeeps : h.Keeps P) {f : Bool → σ → σ × List Action × α}
    (hs : P (f s.isConnected s.state).1) : P (s.act h f).1.state :=
  keeps_perform hkeeps (s := { s with state := (f s.isConnected s.state).1 }) hs _

end Keeping

/-! ## What happens at the end -/

/-- The session is connected, or it was closed and the handler was told last. -/
def Attended (h : SessionHandler σ) (s : Session σ) : Prop :=
  s.phase = .connected ∨ (s.phase = .disconnected ∧ ∃ state, s.state = h.disconnected state)

section Attending

variable {h : SessionHandler σ} {s : Session σ}

theorem send_of_not_connected (hs : s.phase ≠ .connected) (frames : List Bytes) :
    s.send frames = s := by
  rw [send, if_neg (fun hc => hs (isConnected_eq_true_iff.mp hc))]

theorem disconnect_of_not_connected (hs : s.phase ≠ .connected) : s.disconnect h = s := by
  rw [disconnect, if_neg (fun hc => hs (isConnected_eq_true_iff.mp hc))]

theorem receive_of_not_connected (hs : s.phase ≠ .connected) (bytes : Bytes) :
    s.receive h bytes = s := by
  rw [receive, if_neg (fun hc => hs (isConnected_eq_true_iff.mp hc))]

theorem Attended.disconnect (hs : s.Attended h) : (s.disconnect h).Attended h := by
  rcases hs with hconnected | hclosed
  · rw [Session.disconnect, if_pos (isConnected_eq_true_iff.mpr hconnected)]
    exact Or.inr ⟨rfl, s.state, rfl⟩
  · rw [disconnect_of_not_connected (by rw [hclosed.1]; exact Phase.noConfusion)]
    exact Or.inr hclosed

theorem Attended.send (hs : s.Attended h) (frames : List Bytes) : (s.send frames).Attended h := by
  rw [Attended, phase_send, state_send]
  exact hs

theorem Attended.perform (hs : s.Attended h) (actions : List Action) :
    (s.perform h actions).Attended h := by
  rw [Session.perform]
  split
  · exact (hs.send _).disconnect
  · exact hs.send _

theorem Attended.settle (hs : s.Attended h) : (s.settle h).Attended h := by
  rw [Session.settle]
  split
  · exact hs.disconnect
  · exact hs

theorem attended_deliver (hs : s.phase = .connected) : (s.deliver h).Attended h := by
  rw [deliver]
  generalize h.received s.buffer.data s.state = reaction
  obtain ⟨state, actions, consumed⟩ := reaction
  have hshown : ({ s with state }.note .received).Attended h := Or.inl hs
  have hperformed := hshown.perform actions
  dsimp only
  split
  · split
    · exact Attended.settle hperformed
    · exact hperformed.disconnect
  · exact hperformed.disconnect

theorem attended_receive (hs : s.phase = .connected) (bytes : Bytes) :
    (s.receive h bytes).Attended h := by
  rw [receive, if_pos (isConnected_eq_true_iff.mpr hs)]
  split
  next buffer _ => exact attended_deliver (s := { s with buffer }) hs
  next => exact Attended.disconnect (Or.inl hs)

theorem attended_opened (hs : s.phase = .connecting) : (s.opened h true).Attended h := by
  rw [opened, if_pos hs, if_pos rfl]
  exact (Attended.perform (Or.inl rfl) _).settle

theorem attended_act {α : Type} (hs : s.phase = .connected)
    (f : Bool → σ → σ × List Action × α) : (s.act h f).1.Attended h := by
  have hused : ({ s with state := (f s.isConnected s.state).1 } : Session σ).Attended h := Or.inl hs
  exact hused.perform (f s.isConnected s.state).2.1

/-- Whoever uses the handler of a session that is not connected sends nothing. -/
theorem act_of_not_connected {α : Type} (hs : s.phase ≠ .connected)
    (f : Bool → σ → σ × List Action × α) :
    (s.act h f).1 = { s with state := (f false s.state).1 } := by
  have hopen : s.isConnected = false := by
    rw [← Bool.not_eq_true, isConnected_eq_true_iff]
    exact hs
  rw [act, hopen]
  dsimp only
  rw [perform, send_of_not_connected (s := { s with state := (f false s.state).1 }) hs]
  split
  · exact disconnect_of_not_connected (s := { s with state := (f false s.state).1 }) hs
  · rfl

end Attending

end Session

/-! ## Handlers that write something down -/

/-- One handler does what another does, which sees less of the state. -/
structure SessionHandler.Shows (f : σ → τ) (h : SessionHandler σ) (g : SessionHandler τ) :
    Prop where
  connected : ∀ s, g.connected (f s) = (f (h.connected s).1, (h.connected s).2)
  connectFailed : ∀ failure s, g.connectFailed failure (f s) = f (h.connectFailed failure s)
  received : ∀ data s, g.received data (f s) = (f (h.received data s).1, (h.received data s).2)
  disconnected : ∀ s, g.disconnected (f s) = f (h.disconnected s)

/-- A handler for frames shows what it shows with each frame. -/
theorem PacketHandler.shows_session {f : σ → τ} {h : PacketHandler σ} {g : PacketHandler τ}
    (hconnected : ∀ s, g.connected (f s) = (f (h.connected s).1, (h.connected s).2))
    (hfailed : ∀ failure s, g.connectFailed failure (f s) = f (h.connectFailed failure s))
    (hpacket : ∀ frame s, g.packet frame (f s) = (f (h.packet frame s).1, (h.packet frame s).2))
    (hdisconnected : ∀ s, g.disconnected (f s) = f (h.disconnected s)) :
    SessionHandler.Shows f h.session g.session := by
  refine ⟨hconnected, hfailed, fun data s => ?_, hdisconnected⟩
  have hdispatch : ∀ (acc : σ × List Action) frame,
      g.dispatch (f acc.1, acc.2) frame =
        ((f (h.dispatch acc frame).1.1, (h.dispatch acc frame).1.2), (h.dispatch acc frame).2) := by
    intro acc frame
    rw [dispatch, hpacket]
    rfl
  have hsplit := Frame.splitFrom_shows (f := fun acc : σ × List Action => (f acc.1, acc.2))
    hdispatch (s, []) 0 data
  show g.received data (f s) = _
  rw [received, Frame.split, hsplit]
  show _ = (f (h.received data s).1, (h.received data s).2)
  rw [received, Frame.split]
  generalize Frame.splitFrom h.dispatch (s, []) 0 data = result
  obtain ⟨⟨state, actions⟩, consumed | e⟩ := result <;> rfl

namespace Session

/-- The session with another state of its handler. -/
def map (f : σ → τ) (s : Session σ) : Session τ where
  phase := s.phase
  buffer := s.buffer
  state := f s.state
  sent := s.sent
  hooks := s.hooks

section Showing

variable {f : σ → τ} {h : SessionHandler σ} {g : SessionHandler τ}

@[simp] theorem isConnected_map (f : σ → τ) (s : Session σ) :
    (s.map f).isConnected = s.isConnected := rfl

theorem map_send (frames : List Bytes) (s : Session σ) :
    (s.send frames).map f = (s.map f).send frames := by
  rw [send, send, isConnected_map]
  split <;> rfl

theorem map_disconnect (hshows : h.Shows f g) (s : Session σ) :
    (s.disconnect h).map f = (s.map f).disconnect g := by
  rw [disconnect, disconnect, isConnected_map]
  split
  · simp only [map, note, hshows.disconnected]
  · rfl

theorem map_perform (hshows : h.Shows f g) (actions : List Action) (s : Session σ) :
    (s.perform h actions).map f = (s.map f).perform g actions := by
  rw [perform, perform, ← map_send]
  split
  · exact map_disconnect hshows _
  · rfl

theorem map_settle (hshows : h.Shows f g) (s : Session σ) :
    (s.settle h).map f = (s.map f).settle g := by
  have hbuffer : (s.map f).buffer = s.buffer := rfl
  rw [settle, settle, hbuffer]
  split
  · exact map_disconnect hshows s
  · rfl

theorem map_opened (hshows : h.Shows f g) (admitted : Bool) (s : Session σ) :
    (s.opened h admitted).map f = (s.map f).opened g admitted := by
  have hphase : (s.map f).phase = s.phase := rfl
  rw [opened, opened, hphase]
  split
  · split
    · dsimp only
      rw [map_settle hshows, map_perform hshows]
      simp only [map, note, hshows.connected]
    · rfl
  · rfl

theorem map_openFailed (hshows : h.Shows f g) (failure : ConnectFailure) (s : Session σ) :
    (s.openFailed h failure).map f = (s.map f).openFailed g failure := by
  have hphase : (s.map f).phase = s.phase := rfl
  rw [openFailed, openFailed, hphase]
  split
  · simp only [map, note, hshows.connectFailed]
  · rfl

theorem map_deliver (hshows : h.Shows f g) (s : Session σ) :
    (s.deliver h).map f = (s.map f).deliver g := by
  have hshown : g.received (s.map f).buffer.data (s.map f).state = _ :=
    hshows.received s.buffer.data s.state
  rw [deliver, deliver, hshown]
  generalize h.received s.buffer.data s.state = reaction
  obtain ⟨state, actions, consumed⟩ := reaction
  have hperformed := map_perform hshows actions ({ s with state }.note .received)
  have hnoted : ({ s with state }.note .received).map f =
    ({ s.map f with state := f state }.note .received) := rfl
  have hsize : (s.map f).buffer.size = s.buffer.size := rfl
  dsimp only
  rw [hsize, ← hnoted, ← hperformed]
  generalize ({ s with state }.note .received).perform h actions = performed
  have hbuffer : (performed.map f).buffer = performed.buffer := rfl
  rw [hbuffer]
  split
  · split
    next buffer _ => exact map_settle hshows { performed with buffer := buffer.compact }
    next => exact map_disconnect hshows performed
  · exact map_disconnect hshows performed

theorem map_receive (hshows : h.Shows f g) (bytes : Bytes) (s : Session σ) :
    (s.receive h bytes).map f = (s.map f).receive g bytes := by
  have hbuffer : (s.map f).buffer = s.buffer := rfl
  rw [receive, receive, isConnected_map, hbuffer]
  split
  · split
    next buffer _ => exact map_deliver hshows { s with buffer }
    next => exact map_disconnect hshows s
  · rfl

theorem map_act {α : Type} (hshows : h.Shows f g) {use : Bool → σ → σ × List Action × α}
    {use' : Bool → τ → τ × List Action × α}
    (huse : ∀ connected s, use' connected (f s) = (f (use connected s).1, (use connected s).2))
    (s : Session σ) : (s.act h use).1.map f = ((s.map f).act g use').1 := by
  have hused : use' (s.map f).isConnected (s.map f).state = _ := huse s.isConnected s.state
  rw [act, act, hused]
  exact map_perform hshows _ { s with state := (use s.isConnected s.state).1 }

end Showing

end Session

end SessionEngine
